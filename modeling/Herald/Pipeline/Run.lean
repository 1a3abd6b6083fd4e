import Herald.Pipeline

/-!
# Running the pipeline

Whatever can happen happens before time passes, and time passes only up to the next moment at which
a call or a preparation ends. Of several possible moves drafts that are ready come first, then the
pool, then the end of jobs, then the delivery workers.

* `State.handle`: lets one message through the whole pipeline.
-/

namespace Herald.Pipeline

/-- At least as many as the moves and the waits that a job takes. -/
def Order.bound (w : Delivery.World) (o : Order) : Nat :=
  24 + total ((o.job.errands o.number).map (·.bound w))

/-- At least as many as the moves and the waits that a message takes. -/
def Draft.bound (w : Delivery.World) (d : Draft) : Nat :=
  match d.result with
  | .ok job => Order.bound w ⟨d.number, job⟩
  | .error _ => 2

namespace State

variable (settings : Settings) (w : World)

/-- The worker of the pool whose delivery is done. -/
def done? (s : State) : Option Nat :=
  s.delivery.workers.zipIdx.findSome? fun k =>
    if k.1.isBusy then none else (s.order? k.2).map fun _ => k.2

/-- The move that comes first among the possible ones. -/
def next? (s : State) : Option Move :=
  match s.drafts.findIdx? (·.due ≤ s.now) with
  | some position => some (.submit position)
  | none =>
    match s.pool.next? with
    | some m => some (.pool m)
    | none =>
      match s.done? with
      | some worker => some (.finish worker)
      | none => (s.delivery.next? settings.delivery).map fun m => .deliver m.1 m.2

/-- The next moment at which something ends. -/
def due? (s : State) : Option Nat :=
  (s.drafts.map (·.due) ++ s.delivery.due?.toList).min?

/-- Some message is on its way. -/
def isBusy (s : State) : Bool :=
  !s.drafts.isEmpty || s.delivery.isBusy || s.pool.workers.any (·.job?.isSome)

/-- At least as many as the moves and the waits that are left. -/
def bound (s : State) : Nat :=
  total (s.drafts.map (·.bound w.delivery)) + total (s.pool.intake.items.map (·.bound w.delivery)) +
    total (s.pool.intake.waiting.map (·.2.bound w.delivery)) +
    s.pool.dispatcher.hand.elim 0 (·.bound w.delivery) +
    total (s.pool.workers.map (·.job?.elim 0 (·.bound w.delivery))) + 2 * s.pool.bound +
    s.delivery.bound w.delivery

/-- Lets things happen for at most `n` moves and waits, and time pass while `waits` says so. -/
def runFor (waits : State → Nat → Bool) : Nat → State → State
  | 0, s => s
  | n + 1, s =>
    match s.next? settings with
    | some m =>
      match s.step settings w m with
      | some s => runFor waits n s
      | none => s
    | none =>
      match s.due? with
      | some t =>
        if waits s t then runFor waits n { s with delivery := s.delivery.pass t } else s
      | none => s

/-- Lets things happen, and time pass while `waits` says so. -/
def run (waits : State → Nat → Bool) (s : State) : State :=
  runFor settings w waits (s.bound w) s

/-- Lets things happen until no message is on its way. -/
def finish (s : State) : State := s.run settings w fun s _ => s.isBusy

/-- Lets a time pass. -/
def advance (s : State) (ms : Nat) : State :=
  let t := s.now + ms
  let s := s.run settings w fun _ due => due ≤ t
  { s with delivery := s.delivery.pass t }

/-- Lets a message through the pipeline. -/
def handle (s : State) (payload : List UInt8) : State :=
  (s.arrive settings w payload).finish settings w

/-- Lets an event through the pipeline. -/
def handleEvent (s : State) (e : Event) : State := (s.enter settings w e).finish settings w

/-- Stops the pool and waits for its end. -/
def stop (s : State) : State :=
  ((s.step settings w .stop).getD s).finish settings w

end State

end Herald.Pipeline
