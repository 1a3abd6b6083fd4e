import Herald.Arithmetic
import Herald.Delivery

/-!
# Running deliveries

Some workers with one cache and one clock. Whatever can happen happens before time passes, and time
passes only up to the next moment at which a call ends. Of several possible moves the next errand
comes first, then the flights in their order, then the sink.

* `State.finish`: lets time pass until no worker has a job.
* `State.advance`: lets a given time pass.
* `State.drain`: lets time pass until the sinks have nothing left to do.
* `State.release`: drops a worker, whose sink then removes what it holds and ends.
-/

namespace Herald.Delivery

/-! ## Choice of moves -/

namespace Send

/-- When the call of a send ends. -/
def due? : Send → Option Nat
  | flying call => some call.due
  | _ => none

end Send

namespace Stage

/-- When the calls of a stage end. -/
def dues : Stage → List Nat
  | fresh => []
  | checking _ call => [call.due]
  | lookingUp call => [call.due]
  | sending sends => sends.filterMap (·.2.due?)
  | recording _ call => [call.due]
  | storing _ call => [call.due]

end Stage

/-- How many devices a user has. -/
def World.devicesOf (w : World) (user : UserId) : Nat :=
  match (w.devices user).answer with
  | .ok tokens => tokens.length
  | .error _ => 0

/-- At least as many as the moves and the waits that an errand takes. -/
def Errand.bound (w : World) (e : Errand) : Nat := 16 + 12 * w.devicesOf e.user

/-- At least as many as the moves and the waits that are left of an errand. -/
def Flight.bound (w : World) (f : Flight) : Nat :=
  f.errand.bound w + match f.stage with
    | .sending sends => 12 * sends.length
    | .lookingUp ⟨_, .ok tokens⟩ => 12 * tokens.length
    | _ => 0

namespace Worker

/-- The move that comes first among the possible ones. -/
def next? (settings : Settings) (clock : ClockedCache) (k : Worker) : Option Move :=
  if k.canStart settings then some .start
  else match k.flights.findIdx? (·.stage.isReady (k.scene clock)) with
    | some position => some (.turn position)
    | none =>
      match k.sink.removal with
      | some p => if p.isOver clock.now then some .finish else none
      | none => if k.sink.queue.items.isEmpty then none else some .take

/-- When the calls under way end. -/
def dues (k : Worker) : List Nat :=
  k.flights.flatMap (·.stage.dues) ++ k.sink.removal.toList.map (·.due)

/-- At least as many as the moves and the waits that are left. -/
def bound (w : World) (k : Worker) : Nat :=
  total (k.waiting.map (·.bound w)) + total (k.flights.map (·.bound w)) +
    4 * k.sink.queue.items.length + 4

end Worker

/-! ## States -/

/-- Workers that share a cache and a clock. -/
structure State where
  clock : ClockedCache := {}
  workers : List Worker
  /-- What happened, latest first. -/
  log : List Happening := []

namespace State

variable (settings : Settings) (w : World)

/-- One move of the worker at a position. -/
def step (s : State) (worker : Nat) (m : Move) : Option State := do
  let k ← s.workers[worker]?
  let (k, clock, log) ← k.step settings w s.clock m
  pure ⟨clock, s.workers.set worker k, log ++ s.log⟩

/-- The move that comes first, and the position of its worker. -/
def next? (s : State) : Option (Nat × Move) :=
  s.workers.zipIdx.findSome? fun k => (k.1.next? settings s.clock).map (k.2, ·)

/-- The next moment at which a call ends. -/
def due? (s : State) : Option Nat := (s.workers.flatMap (·.dues)).min?

/-- Lets the clock show a later time. -/
def pass (s : State) (t : Nat) : State := { s with clock := { s.clock with now := max s.clock.now t } }

/-- Some worker has a job. -/
def isBusy (s : State) : Bool := s.workers.any (·.isBusy)

/-- At least as many as the moves and the waits that are left. -/
def bound (s : State) : Nat := total (s.workers.map (·.bound w)) + 1

/-- Lets things happen for at most `n` moves and waits, and time pass while `waits` says so. -/
def runFor (waits : State → Nat → Bool) : Nat → State → State
  | 0, s => s
  | n + 1, s =>
    match s.next? settings with
    | some (worker, m) =>
      match s.step settings w worker m with
      | some s => runFor waits n s
      | none => s
    | none =>
      match s.due? with
      | some t => if waits s t then runFor waits n (s.pass t) else s
      | none => s

/-- Lets things happen, and time pass while `waits` says so. -/
def run (waits : State → Nat → Bool) (s : State) : State :=
  runFor settings w waits (s.bound w) s

/-- Lets things happen until no worker has a job and nothing more happens without time passing. -/
def finish (s : State) : State := s.run settings w fun s _ => s.isBusy

/-- Lets time pass up to a moment. -/
def reach (s : State) (t : Nat) : State := (s.run settings w fun _ due => due ≤ t).pass t

/-- Lets a time pass. -/
def advance (s : State) (ms : Nat) : State := s.reach settings w (s.clock.now + ms)

/-- Lets time pass until the sinks have nothing left to do. -/
def drain (s : State) : State := s.run settings w fun _ _ => true

/-- Gives a job to the worker at a position. -/
def assign (s : State) (worker : Nat) (j : Job) (number : Nat) : State :=
  { s with workers := s.workers.modify worker (·.assign j number) }

/-- The worker at a position is dropped, and with it its hold on the sink. -/
def release (s : State) (worker : Nat) : State :=
  { s with workers := s.workers.modify worker fun k => { k with sink := k.sink.release } }

/-- A worker delivers a job. -/
def deliver (s : State) (worker : Nat) (j : Job) (number : Nat) : State :=
  (s.assign worker j number).finish settings w

end State

/-! ## What happened -/

namespace Happening

/-- The call that started. -/
def call? : Happening → Option Call
  | called c => some c
  | _ => none

/-- The message that was sent, and to which device. -/
def attempt? : Happening → Option (DeviceToken × Notification)
  | sent e _ token => some (token, e.notification)
  | _ => none

/-- How the number of device lookups under way changes, given that number. -/
def lookups : Happening → Nat → Nat
  | called (.devices _), n => n + 1
  | found .., n => n - 1
  | _, n => n

end Happening

/-- The most device lookups that were under way at once, of what happened, latest first. -/
def peakLookups (log : List Happening) : Nat :=
  (log.foldr (fun h (n, peak) => (h.lookups n, max peak (h.lookups n))) (0, 0)).2

end Herald.Delivery
