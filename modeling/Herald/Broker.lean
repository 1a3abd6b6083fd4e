import Herald.Call
import Herald.Configuration

/-!
# The message broker

Events come from the queues of a message broker, and recommendations are published there. The
broker keeps a delivery until it is settled.

* `setup`: what is asked of a broker before anything else.
* `attempt`: requests are made in order until one is refused.
* `requests`: what calls to collaborators ask of a broker.

Here are `connect` (`setup`) and `publish` (`publication`) of the client of the broker, and the
requests that `acknowledge` and `reject` make (`Settlement`).
-/

namespace Herald.Broker

/-- The number of a delivery. -/
abbrev Tag := Nat

/-- How a delivery is settled. -/
inductive Settlement where
  | acknowledged
  /-- The delivery is put back into its queue, or is given up. -/
  | rejected (requeue : Bool)
deriving DecidableEq, Repr

/-- What is asked of the broker. -/
inductive Request where
  | connect
  /-- How many deliveries may be unsettled. -/
  | prefetch (count : Nat)
  /-- A queue that outlives the broker. -/
  | declare (queue : String)
  | consume (queue : String)
  /-- A message that outlives the broker, sent straight to a queue. -/
  | publish (queue : String) (payload : String)
  | settle (tag : Tag) (s : Settlement)
deriving DecidableEq, Repr

/-! ## Setting up -/

/-- What is asked before anything else, in order. -/
def setup (c : Configuration) : List Request :=
  [.connect, .prefetch (c.get .prefetchCount : UInt16).toNat,
    .declare (c.get .userEventsQueue : String), .declare (c.get .roomEventsQueue : String)]

/-- What is said when the broker refuses a request. -/
def Request.refusal : Request → String
  | connect => "Failed to connect to RabbitMQ"
  | prefetch _ => "Failed to set up QoS"
  | declare queue => s!"Failed to declare queue {queue}"
  | consume queue => s!"Failed to create consumer for {queue}"
  | publish queue _ => s!"Failed to publish event to {queue}"
  | settle _ .acknowledged => "Failed to acknowledge message"
  | settle _ (.rejected _) => "Failed to reject message"

/-- Makes requests in order until one is refused; yields those made, and the one refused. -/
def attempt (grants : Request → Bool) : List Request → List Request × Option Request
  | [] => ([], none)
  | r :: rest =>
    if grants r then
      let t := attempt grants rest
      (r :: t.1, t.2)
    else ([r], some r)

/-- The failure of a request that was refused. -/
def refused (r : Request) : Failure := .reported r.refusal

/-- The request that publishes an event. -/
def publication (queue : String) (e : Event) : Request := .publish queue e.encode

/-- What a call asks of the broker: it is where events are published, and other calls go elsewhere. -/
def request? : Call → Option Request
  | .publish queue e => some (publication queue e)
  | _ => none

/-- What calls ask of the broker, in order. -/
def requests (calls : List Call) : List Request := calls.filterMap request?

end Herald.Broker
