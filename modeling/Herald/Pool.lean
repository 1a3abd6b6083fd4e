import Herald.Channel

/-!
# The worker pool

A fixed number of workers, a bounded intake for jobs and a dispatcher between them. A worker with
nothing to do puts its slot on the registry; the dispatcher takes the next job from the intake,
waits for a slot and hands the job over. Whoever submits a job waits while the intake is full.

Everything that happens is a `Move`, and a move is one atomic step: one look at the state of the pool
or one operation on the intake, on the registry or on a slot. Which of several possible moves comes
first is left open. So a worker may close its slot between the two steps in which the dispatcher
takes the slot off the registry and puts a job into it; the job is then handed back.

A pool ends when it is stopped, or when its owner lets go of it. A job that was handed over is still
run; a job that waits in the intake or in the hands of the dispatcher is dropped and counted, and
whoever still waits to submit one is refused.

* `State.step`: what a move makes of a pool.
* `State.report?`: the report about a stopped pool, once everything has ended.

Here are `start` (`State.create`), `dispatch` (`State.submit`), `worker_states` (`State.statuses`)
and `stop` (`Move.stop`, and then `State.report?`) of the worker pool, and its `run_worker` and
`run_dispatcher` (`Phase`, `Dispatcher`).
-/

namespace Herald.Pool

/-- What is said to someone whose job is turned away. -/
def refusal : String := "Worker pool is not running"

/-- What a worker is doing. -/
inductive Phase (J : Type) where
  /-- It is about to see whether the pool goes on. -/
  | deciding
  /-- It is about to put its slot on the registry. -/
  | asking
  /-- It waits at its slot, which holds a job once one is handed over. -/
  | waiting (job : Option J)
  /-- It has closed its slot because the pool ends, and is about to see what came before that. -/
  | closed (job : Option J)
  | busy (job : J)
  | stopped
  /-- Its handler broke down at a job. -/
  | crashed (job : J)
deriving Repr

/-- How a worker is seen from outside. -/
inductive Status where
  | idle
  | busy
  | stopped
deriving DecidableEq, Repr

namespace Phase

variable {J : Type}

/-- The status of a worker. One whose handler broke down still counts as busy. -/
def status : Phase J → Status
  | deciding | asking | waiting _ | closed _ => .idle
  | busy _ | crashed _ => .busy
  | stopped => .stopped

/-- The worker has ended, and its handler is gone. -/
def hasEnded : Phase J → Bool
  | stopped | crashed _ => true
  | _ => false

/-- The slot of the worker is open and empty. -/
def isVacant : Phase J → Bool
  | waiting none => true
  | _ => false

/-- The job that a worker has been handed and is not done with. -/
def job? : Phase J → Option J
  | waiting job | closed job => job
  | busy job => some job
  | _ => none

end Phase

/-- What the dispatcher is doing. -/
inductive Dispatcher (J : Type) where
  /-- It waits for a job. -/
  | receiving
  /-- It waits for a slot for its job. -/
  | holding (job : J)
  /-- It has taken the slot of a worker off the registry and is about to put its job in. -/
  | offering (job : J) (worker : Nat)
  /-- It is about to close the intake; so many jobs are dropped. -/
  | closing (dropped : Nat)
  /-- It drops what is left in the intake; so many jobs are dropped so far. -/
  | draining (dropped : Nat)
  | ended (dropped : Nat)
deriving Repr

/-- The job in the hands of the dispatcher. -/
def Dispatcher.hand {J : Type} : Dispatcher J → Option J
  | .holding job | .offering job _ => some job
  | _ => none

/-- Whether a pool has been told to end. -/
inductive Shutdown where
  | none
  /-- Someone stops the pool and waits for its report. -/
  | stopped
  /-- The owner has let go of the pool. -/
  | abandoned
deriving DecidableEq, Repr

/-- Something that happened to a job. -/
inductive Happening (J : Type) where
  /-- The job is in the intake; whoever submitted it goes on. -/
  | accepted (job : J)
  /-- The job was turned away. -/
  | refused (job : J)
  | handed (worker : Nat) (job : J)
  | started (worker : Nat) (job : J)
  | finished (worker : Nat) (job : J)
  | crashed (worker : Nat) (job : J)
  /-- The job was accepted, and no worker gets it. -/
  | dropped (job : J)
deriving Repr

/-- A pool. -/
structure State (J : Type) where
  intake : Channel J
  /-- The workers whose slots were put on the registry, oldest first. -/
  registry : List Nat := []
  dispatcher : Dispatcher J := .receiving
  workers : List (Phase J)
  shutdown : Shutdown := .none
  /-- What happened, latest first. -/
  log : List (Happening J) := []

/-- Something that can happen to a pool. -/
inductive Move (J : Type) where
  /-- Someone submits a job. -/
  | submit (job : J)
  /-- The job of a ticket, which had to wait, comes into the intake. -/
  | enter (ticket : Nat)
  | stop
  | abandon
  /-- A worker sees whether the pool goes on. -/
  | decide (worker : Nat)
  /-- A worker puts its slot on the registry, or ends because there is no dispatcher left. -/
  | ask (worker : Nat)
  /-- A worker starts the job in its slot, or ends because nobody is left to put one in. -/
  | start (worker : Nat)
  /-- A worker closes its slot because the pool ends. -/
  | withdraw (worker : Nat)
  /-- A worker starts the job in the slot that it has closed, or ends because there is none. -/
  | look (worker : Nat)
  /-- A worker is done with its job. -/
  | finish (worker : Nat)
  /-- The handler of a worker breaks down. -/
  | crash (worker : Nat)
  /-- The dispatcher takes the next job from the intake. -/
  | receive
  /-- The dispatcher takes the next slot off the registry. -/
  | take
  /-- The dispatcher hands its job to the slot it has taken, or keeps it if the slot is closed. -/
  | hand
  /-- The dispatcher gives up because the pool ends, or because there is no worker left. -/
  | give
  /-- The dispatcher closes the intake. -/
  | close
  /-- The dispatcher drops a job that is left in the intake, or has dropped all. -/
  | drain
deriving Repr

/-- The pool makes such a move on its own: nobody acts from outside and no job ends. -/
def Move.isOwn {J : Type} : Move J → Bool
  | .submit _ | .stop | .abandon | .finish _ | .crash _ => false
  | _ => true

namespace State

variable {J : Type}

/-- A pool of `size` workers whose intake has `capacity` places, but at least one. -/
def create (size capacity : Nat) : State J :=
  { intake := .create capacity, workers := List.replicate size .deciding }

/-- Puts a worker into a phase. -/
def put (s : State J) (worker : Nat) (p : Phase J) : State J :=
  { s with workers := s.workers.set worker p }

/-- Writes down what happens. -/
def note (s : State J) (h : Happening J) : State J := { s with log := h :: s.log }

section

variable (s : State J) (i : Nat) (p : Phase J) (h : Happening J)

@[simp] theorem intake_put : (s.put i p).intake = s.intake := rfl

@[simp] theorem registry_put : (s.put i p).registry = s.registry := rfl

@[simp] theorem dispatcher_put : (s.put i p).dispatcher = s.dispatcher := rfl

@[simp] theorem shutdown_put : (s.put i p).shutdown = s.shutdown := rfl

@[simp] theorem log_put : (s.put i p).log = s.log := rfl

@[simp] theorem workers_put : (s.put i p).workers = s.workers.set i p := rfl

@[simp] theorem intake_note : (s.note h).intake = s.intake := rfl

@[simp] theorem registry_note : (s.note h).registry = s.registry := rfl

@[simp] theorem dispatcher_note : (s.note h).dispatcher = s.dispatcher := rfl

@[simp] theorem shutdown_note : (s.note h).shutdown = s.shutdown := rfl

@[simp] theorem log_note : (s.note h).log = h :: s.log := rfl

@[simp] theorem workers_note : (s.note h).workers = s.workers := rfl

end

/-- All workers have ended. -/
def workersEnded (s : State J) : Bool := s.workers.all (·.hasEnded)

/-- The dispatcher has ended. -/
def dispatcherEnded (s : State J) : Bool :=
  match s.dispatcher with
  | .ended _ => true
  | _ => false

/-- How many slots the registry has room for. -/
def places (s : State J) : Nat := max s.workers.length 1

/-- The pool has been told to end. -/
def isEnding (s : State J) : Bool := s.shutdown ≠ .none

/-- Submits a job. -/
def submit (s : State J) (job : J) : State J :=
  match s.intake.send? job with
  | none => s.note (.refused job)
  | some (none, intake) => { s with intake }.note (.accepted job)
  | some (some _, intake) => { s with intake }

/-- Closes the intake of a pool that has dropped some jobs so far. -/
def closeIntake (s : State J) (dropped : Nat) : State J :=
  { s with
    intake := s.intake.close
    dispatcher := .draining dropped
    log := (s.intake.waiting.map fun w => .refused w.2).reverse ++ s.log }

/-- What a move makes of a pool; none if the move is not possible. -/
def step (s : State J) : Move J → Option (State J)
  | .submit job => some (s.submit job)
  | .enter t => (s.intake.enter? t).map fun r => { s with intake := r.2 }.note (.accepted r.1)
  | .stop => if s.isEnding then none else some { s with shutdown := .stopped }
  | .abandon => if s.isEnding then none else some { s with shutdown := .abandoned }
  | .decide i =>
    match s.workers[i]? with
    | some .deciding => some (s.put i (if s.shutdown = .stopped then .stopped else .asking))
    | _ => none
  | .ask i =>
    match s.workers[i]? with
    | some .asking =>
      if s.dispatcherEnded then some (s.put i .stopped)
      else if s.registry.length < s.places then
        some { s.put i (.waiting none) with registry := s.registry ++ [i] }
      else none
    | _ => none
  | .start i =>
    match s.workers[i]? with
    | some (.waiting (some job)) => some ((s.put i (.busy job)).note (.started i job))
    | some (.waiting none) => if s.dispatcherEnded then some (s.put i .stopped) else none
    | _ => none
  | .withdraw i =>
    match s.workers[i]? with
    | some (.waiting job) => if s.isEnding then some (s.put i (.closed job)) else none
    | _ => none
  | .look i =>
    match s.workers[i]? with
    | some (.closed (some job)) => some ((s.put i (.busy job)).note (.started i job))
    | some (.closed none) => some (s.put i .stopped)
    | _ => none
  | .finish i =>
    match s.workers[i]? with
    | some (.busy job) => some ((s.put i .deciding).note (.finished i job))
    | _ => none
  | .crash i =>
    match s.workers[i]? with
    | some (.busy job) => some ((s.put i (.crashed job)).note (.crashed i job))
    | _ => none
  | .receive =>
    match s.dispatcher, s.intake.receive? with
    | .receiving, some (job, intake) => some { s with intake, dispatcher := .holding job }
    | _, _ => none
  | .take =>
    match s.dispatcher, s.registry with
    | .holding job, i :: rest => some { s with registry := rest, dispatcher := .offering job i }
    | _, _ => none
  | .hand =>
    match s.dispatcher with
    | .offering job i =>
      if (s.workers[i]?).any (·.isVacant) then
        some ({ s.put i (.waiting (some job)) with dispatcher := .receiving }.note (.handed i job))
      else some { s with dispatcher := .holding job }
    | _ => none
  | .give =>
    match s.dispatcher with
    | .receiving => if s.isEnding then some { s with dispatcher := .closing 0 } else none
    | .holding job =>
      if s.isEnding || (s.registry.isEmpty && s.workersEnded) then
        some ({ s with dispatcher := .closing 1 }.note (.dropped job))
      else none
    | _ => none
  | .close =>
    match s.dispatcher with
    | .closing n => some (s.closeIntake n)
    | _ => none
  | .drain =>
    match s.dispatcher, s.intake.receive? with
    | .draining n, some (job, intake) =>
      some ({ s with intake, dispatcher := .draining (n + 1) }.note (.dropped job))
    | .draining n, none => some { s with dispatcher := .ended n }
    | _, _ => none

/-! ## Reports -/

/-- The statuses of the workers. -/
def statuses (s : State J) : List Status := s.workers.map (·.status)

end State

/-- What a stopped pool leaves behind. -/
structure Report where
  statuses : List Status
  /-- How many accepted jobs no worker got. -/
  dropped : Nat
deriving DecidableEq, Repr

namespace State

variable {J : Type}

/-- The report about a pool, once it was stopped and everything has ended. -/
def report? (s : State J) : Option Report :=
  match s.dispatcher with
  | .ended dropped =>
    if s.shutdown = .stopped && s.workersEnded then some ⟨s.statuses, dropped⟩ else none
  | _ => none

/-! ## Settling -/

/-- A move that a worker makes on its own. -/
def workerMove? (s : State J) (i : Nat) : Phase J → Option (Move J)
  | .deciding => some (.decide i)
  | .asking => if s.dispatcherEnded || s.registry.length < s.places then some (.ask i) else none
  | .waiting (some _) => some (.start i)
  | .waiting none =>
    if s.dispatcherEnded then some (.start i) else if s.isEnding then some (.withdraw i) else none
  | .closed _ => some (.look i)
  | _ => none

/-- A move that the dispatcher makes on its own. -/
def dispatcherMove? (s : State J) : Option (Move J) :=
  match s.dispatcher with
  | .receiving =>
    if s.isEnding then some .give
    else if s.intake.items.isEmpty then none else some .receive
  | .holding _ =>
    if s.isEnding || (s.registry.isEmpty && s.workersEnded) then some .give
    else if s.registry.isEmpty then none else some .take
  | .offering _ _ => some .hand
  | .closing _ => some .close
  | .draining _ => some .drain
  | .ended _ => none

/-- The entry of the job that was called into the intake first. -/
def entryMove? (s : State J) : Option (Move J) := s.intake.called.head?.map fun w => .enter w.1

/-- A move that the pool makes on its own: jobs are neither submitted nor done. -/
def next? (s : State J) : Option (Move J) :=
  s.entryMove? <|> (s.workers.zipIdx.findSome? fun p => s.workerMove? p.2 p.1) <|> s.dispatcherMove?

/-- At least as many as the moves that a pool makes on its own. -/
def bound (s : State J) : Nat :=
  8 * (s.intake.items.length + s.intake.waiting.length + s.registry.length + s.workers.length + 2)

/-- Makes at most `n` moves of the pool's own. -/
def settleFor : Nat → State J → State J
  | 0, s => s
  | n + 1, s =>
    match s.next? with
    | none => s
    | some m =>
      match s.step m with
      | none => s
      | some t => settleFor n t

/-- Lets the pool go on until it cannot on its own. -/
def settle (s : State J) : State J := settleFor s.bound s

end State

end Herald.Pool
