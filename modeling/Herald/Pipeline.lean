import Herald.Audience
import Herald.Content
import Herald.Delivery.Run
import Herald.Event.Codec
import Herald.Pool

/-!
# The pipeline

A message is an event as text. Its notification is built and its recipients are worked out side by
side; both make all their calls whatever the other one comes to. The job that results is submitted
to the pool of delivery workers, each with its own sink for dead devices. An event that comes to
nothing is dropped, and no event affects what becomes of another one's preparation.

Messages may overlap: each `Move` is one step of one of the parts, in any order.

* `prepare`: the job of an event, or what the event comes to instead.
* `State.step`: what a move makes of a pipeline.

Here are `handle` of the notification service (`prepare`, and then `State.submit`) and
`process_message` (`State.arrive`).
-/

namespace Herald.Pipeline

/-- What is fixed while a pipeline runs. -/
structure Settings where
  delivery : Delivery.Settings
  greeters : List UserId
  recentLimit : Int64

/-- How the collaborators reply to calls that start now. -/
structure World where
  directories : Directories
  audience : SettingsStore
  delivery : Delivery.World

/-- What becomes of a message. -/
inductive Outcome where
  /-- It is no event. -/
  | malformed
  | buildFailed
  | resolutionFailed
  | noTargets
  /-- The pool no longer takes jobs. -/
  | dispatchFailed
  | dispatched (targets : Nat)
deriving DecidableEq, Repr

/-! ## From an event to a job -/

/-- Works out the recipients of events. -/
def resolver (settings : Settings) (w : World) : Resolver where
  settings := w.audience
  greeters := settings.greeters
  recentLimit := settings.recentLimit
  limit := settings.delivery.limit

/-- The job that a notification and its recipients make. -/
def jobOf : Except BuildError Notification → Except ResolutionError (List Recipient) →
    Except Outcome Delivery.Job
  | .error _, _ => .error .buildFailed
  | .ok _, .error _ => .error .resolutionFailed
  | .ok notification, .ok targets =>
    if targets.isEmpty then .error .noTargets else .ok ⟨targets, notification⟩

/-- Prepares the job of an event. -/
def prepareWith (registry : Registry) (resolver : Resolver) (e : Event) :
    Timed (Except Outcome Delivery.Job) := do
  let (notification, targets) ← (registry.build e).run.both (resolver.resolve e).run
  pure (jobOf notification targets)

/-- Prepares the job of an event. -/
def prepare (settings : Settings) (w : World) (e : Event) : Timed (Except Outcome Delivery.Job) :=
  prepareWith (.standard w.directories settings.delivery.limit) (resolver settings w) e

/-! ## Runs -/

/-- The job of a message. -/
structure Order where
  /-- The number of the message. -/
  number : Nat
  job : Delivery.Job

/-- A message whose job is being prepared: when it is ready, and what it comes to. -/
structure Draft where
  number : Nat
  due : Nat
  result : Except Outcome Delivery.Job

/-- A pipeline. -/
structure State where
  drafts : List Draft := []
  pool : Pool.State Order
  delivery : Delivery.State
  /-- How many messages have arrived. -/
  arrivals : Nat := 0
  /-- The messages that were not submitted to the pool, latest first. -/
  failures : List (Nat × Outcome) := []

/-- Something that can happen. -/
inductive Move where
  | arrive (payload : List UInt8)
  /-- An event that is already decoded. -/
  | enter (e : Event)
  /-- The draft at a position is ready. -/
  | submit (position : Nat)
  | stop
  /-- A move that the pool makes on its own; jobs do not come or end this way. -/
  | pool (m : Pool.Move Order)
  /-- A delivery worker is done with its job. -/
  | finish (worker : Nat)
  | deliver (worker : Nat) (m : Delivery.Move)
  /-- Time passes. -/
  | pass (t : Nat)

namespace State

variable (settings : Settings) (w : World)

/-- A pipeline with `size` workers. The intake of the pool has `capacity` places, and the sink of
each worker has `sinkCapacity`. -/
def create (size capacity sinkCapacity : Nat) : State where
  pool := .create size capacity
  delivery := { workers := List.replicate size { sink := .create sinkCapacity } }

/-- The time. -/
def now (s : State) : Nat := s.delivery.clock.now

/-- Starts to prepare the job of an event. -/
def enter (s : State) (e : Event) : State :=
  let t := prepare settings w e
  { s with
    drafts := s.drafts ++ [⟨s.arrivals, s.now + t.elapsed, t.value⟩]
    arrivals := s.arrivals + 1
    delivery := { s.delivery with log := (t.calls.map .called).reverse ++ s.delivery.log } }

/-- Takes in a payload. -/
def arrive (s : State) (payload : List UInt8) : State :=
  match Event.decode? payload with
  | some e => s.enter settings w e
  | none =>
    { s with arrivals := s.arrivals + 1, failures := (s.arrivals, .malformed) :: s.failures }

/-- Submits the job of a draft. -/
def submit (s : State) (d : Draft) : State :=
  match d.result with
  | .error outcome => { s with failures := (d.number, outcome) :: s.failures }
  | .ok job => { s with pool := s.pool.submit ⟨d.number, job⟩ }

/-- The job that a worker of the pool is busy with. -/
def order? (s : State) (worker : Nat) : Option Order :=
  match s.pool.workers[worker]? with
  | some (.busy order) => some order
  | _ => none

/-- Gives the job that a worker has just started, if any, to its delivery worker. -/
def begin (s : State) (worker : Nat) : State :=
  match s.order? worker with
  | some order => { s with delivery := s.delivery.assign worker order.job order.number }
  | none => s

/-- What a move makes of a pipeline; none if the move is not possible. -/
def step (s : State) : Move → Option State
  | .arrive payload => some (s.arrive settings w payload)
  | .enter e => some (s.enter settings w e)
  | .submit position =>
    match s.drafts[position]? with
    | none => none
    | some d =>
      if d.due ≤ s.now then some ({ s with drafts := s.drafts.eraseIdx position }.submit d) else none
  | .stop => (s.pool.step .stop).map fun pool => { s with pool }
  | .pool m =>
    if m.isOwn then
      match s.pool.step m with
      | none => none
      | some pool =>
        match m with
        | .start worker | .look worker => some ({ s with pool }.begin worker)
        | _ => some { s with pool }
    else none
  | .finish worker =>
    match s.delivery.workers[worker]? with
    | none => none
    | some k =>
      if k.isBusy then none else (s.pool.step (.finish worker)).map fun pool => { s with pool }
  | .deliver worker m =>
    (s.delivery.step settings.delivery w.delivery worker m).map fun delivery => { s with delivery }
  | .pass t => some { s with delivery := s.delivery.pass t }

/-- What has become of a message, if that is known. -/
def outcome? (s : State) (number : Nat) : Option Outcome :=
  s.failures.lookup number <|> s.pool.log.findSome? fun
    | .accepted order => if order.number = number then some (.dispatched order.job.targets.length) else none
    | .refused order => if order.number = number then some .dispatchFailed else none
    | _ => none

end State

end Herald.Pipeline
