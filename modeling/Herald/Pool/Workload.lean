import Herald.Pool

/-!
# Pools at work

A pool whose jobs take a known time. Whatever can happen happens before time passes, and time
passes only up to the next moment at which a job is over.

* `Workload.step`: what a command makes of the pool.
-/

namespace Herald.Pool

/-- How long a job takes. -/
inductive Course where
  | atOnce
  | lasting (ms : Nat)
  /-- The job goes on until it is released. -/
  | held
  /-- The handler breaks down at the job. -/
  | crashing
deriving DecidableEq, Repr

/-- A job with a number. -/
structure Task where
  number : Int
  course : Course
deriving DecidableEq, Repr

/-- A pool of workers that run tasks. -/
structure Workload where
  pool : State Task
  now : Nat := 0
  /-- When the workers started their last jobs. -/
  starts : List (Nat × Nat) := []
  /-- The numbers of the jobs that may go on. -/
  released : List Int := []

namespace Workload

/-- Something that is done to a pool from outside. -/
inductive Command where
  | submit (task : Task)
  | release (number : Int)
  | advance (ms : Nat)
  | stop
  | abandon
  | look
deriving DecidableEq, Repr

/-- When a worker started its job. -/
def start (w : Workload) (worker : Nat) : Nat := (w.starts.lookup worker).getD 0

/-- The end of the job of a worker, if its time has come. -/
def ending? (w : Workload) (worker : Nat) : Phase Task → Option (Move Task)
  | .busy task =>
    match task.course with
    | .atOnce => some (.finish worker)
    | .lasting ms => if w.start worker + ms ≤ w.now then some (.finish worker) else none
    | .held => if w.released.contains task.number then some (.finish worker) else none
    | .crashing => some (.crash worker)
  | _ => none

/-- When the job of a worker is over, if that is known. -/
def due? (w : Workload) (worker : Nat) : Phase Task → Option Nat
  | .busy ⟨_, .lasting ms⟩ => some (w.start worker + ms)
  | _ => none

/-- The move that comes first among the possible ones. -/
def next? (w : Workload) : Option (Move Task) :=
  (w.pool.workers.zipIdx.findSome? fun p => w.ending? p.2 p.1) <|> w.pool.next?

/-- Makes a move of the pool. -/
def move (w : Workload) (m : Move Task) : Workload :=
  match w.pool.step m with
  | none => w
  | some pool =>
    match m with
    | .start worker => { w with pool, starts := (worker, w.now) :: w.starts.filter (·.1 != worker) }
    | _ => { w with pool }

/-- Lets things happen, for at most `n` moves and waits; time passes up to a moment. -/
def runFor (limit : Nat) : Nat → Workload → Workload
  | 0, w => w
  | n + 1, w =>
    match w.next? with
    | some m => runFor limit n (w.move m)
    | none =>
      match (w.pool.workers.zipIdx.filterMap fun p => w.due? p.2 p.1).min? with
      | some t => if t ≤ limit then runFor limit n { w with now := max w.now t } else w
      | none => w

/-- Lets things happen, and time pass up to a moment. -/
def runTo (limit : Nat) (w : Workload) : Workload := runFor limit (4 * w.pool.bound) w

/-- What a command makes of a pool. -/
def step (w : Workload) : Command → Workload
  | .submit task => (w.move (.submit task)).runTo w.now
  | .release number => { w with released := number :: w.released }.runTo w.now
  | .advance ms => { w.runTo (w.now + ms) with now := w.now + ms }
  | .stop => (w.move .stop).runTo w.now
  | .abandon => (w.move .abandon).runTo w.now
  | .look => w.runTo w.now

end Workload

end Herald.Pool
