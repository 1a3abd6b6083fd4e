import Herald.Broker
import Herald.Pipeline

/-!
# Consumers of a queue

A consumer takes the deliveries of one queue. Each of them gets a task of its own, which lets the
message through the pipeline and then settles the delivery. In which order tasks begin and end is left
open, and other messages may come to the pipeline as well. A delivery that is an event is acknowledged
whatever comes of it, any other one is given up.

A delivery that cannot be received is passed over, and a settlement that the broker refuses is not tried
again. When a consumer ends, its tasks go on.

* `Consumer.step`: what a move makes of a consumer.

Here are `create_consumer` (`Consumer.start`) and `consume` of the client of the broker, with
`process_message` in each task.
-/

namespace Herald.Broker

open Pipeline (Settings World)

/-- A message that the broker hands out. -/
structure Delivery where
  tag : Tag
  payload : List UInt8
deriving DecidableEq, Repr

/-- How a delivery is settled whose message has come to something. -/
def settlement : Pipeline.Outcome → Settlement
  | .malformed => .rejected false
  | _ => .acknowledged

/-- A delivery that is not settled yet. -/
structure Task where
  delivery : Delivery
  /-- The number of the message in the pipeline, once the task has begun. -/
  number? : Option Nat := none

/-- A consumer. -/
structure Consumer where
  pipeline : Pipeline.State
  /-- Deliveries are taken. -/
  isOpen : Bool := true
  tasks : List Task := []
  /-- What was asked of the broker, and whether it was granted, latest first. -/
  requests : List (Request × Bool) := []

/-- Something that can happen. -/
inductive Move where
  | deliver (d : Delivery)
  /-- A delivery could not be received. -/
  | fail
  /-- The task at a position begins. -/
  | begin (position : Nat)
  /-- The task at a position settles its delivery, which the broker grants or refuses. -/
  | settle (position : Nat) (granted : Bool)
  /-- The consumer is told to end, or the broker ends it. -/
  | close
  /-- A move of the pipeline, which other messages may come to. -/
  | pipeline (m : Pipeline.Move)

namespace Consumer

/-- Starts to consume a queue, which the broker grants or refuses. -/
def start (queue : String) (granted : Bool) (pipeline : Pipeline.State) : Except Failure Consumer :=
  if granted then .ok { pipeline, requests := [(.consume queue, true)] }
  else .error (refused (.consume queue))

variable (settings : Settings) (w : World)

/-- What a move makes of a consumer; none if the move is not possible. -/
def step (c : Consumer) : Move → Option Consumer
  | .deliver d => if c.isOpen then some { c with tasks := c.tasks ++ [⟨d, none⟩] } else none
  | .fail => if c.isOpen then some c else none
  | .begin position =>
    match c.tasks[position]? with
    | some ⟨d, none⟩ =>
      some { c with
        pipeline := c.pipeline.arrive settings w d.payload
        tasks := c.tasks.set position ⟨d, some c.pipeline.arrivals⟩ }
    | _ => none
  | .settle position granted =>
    match c.tasks[position]? with
    | some ⟨d, some number⟩ =>
      (c.pipeline.outcome? number).map fun outcome => { c with
        tasks := c.tasks.eraseIdx position
        requests := (.settle d.tag (settlement outcome), granted) :: c.requests }
    | _ => none
  | .close => if c.isOpen then some { c with isOpen := false } else none
  | .pipeline m => (c.pipeline.step settings w m).map fun pipeline => { c with pipeline }

end Consumer

end Herald.Broker
