import Herald.Pool

/-!
# Pools treat all jobs alike

No move of a pool depends on what the jobs are. When all jobs are relabelled, whatever comes to pass
comes to pass with the new labels.

* `State.step_relabel`: a move of a relabelled pool.
* `State.next?_relabel`: the move that comes first is the same.
-/

namespace Herald

/-! ## Channels -/

namespace Channel

variable {α β : Type} (f : α → β) (c : Channel α)

/-- The channel with other items. -/
def map : Channel β :=
  { c with
    items := c.items.map f
    waiting := c.waiting.map fun w => (w.1, f w.2)
    length_items_le := by simpa using c.length_items_le }

@[simp] theorem items_map : (c.map f).items = c.items.map f := rfl

@[simp] theorem waiting_map : (c.map f).waiting = c.waiting.map fun w => (w.1, f w.2) := rfl

@[simp] theorem free_map : (c.map f).free = c.free := by simp [free, map]

theorem called_map : (c.map f).called = c.called.map fun w => (w.1, f w.2) := by
  simp [called, List.map_take]

@[simp] theorem capacity_map : (c.map f).capacity = c.capacity := rfl

theorem put_map (a : α) (h : c.items.length < c.capacity) :
    (c.put a h).map f = (c.map f).put (f a) (by simpa using h) := by
  simp [put, map]

theorem send?_map (a : α) :
    (c.map f).send? (f a) = (c.send? a).map fun r => (r.1, r.2.map f) := by
  unfold send?
  by_cases hc : c.isClosed = true
  · have hc' : (c.map f).isClosed = true := hc
    rw [if_pos hc, if_pos hc']
    rfl
  · have hc' : ¬ (c.map f).isClosed = true := hc
    rw [if_neg hc, if_neg hc']
    by_cases h : c.waiting.length < c.free
    · have h' : (c.map f).waiting.length < (c.map f).free := by simpa using h
      rw [dif_pos h, dif_pos h', Option.map_some, put_map]
    · have h' : ¬ (c.map f).waiting.length < (c.map f).free := by simpa using h
      rw [dif_neg h, dif_neg h']
      simp [map]

theorem enter?_map (t : Nat) :
    (c.map f).enter? t = (c.enter? t).map fun r => (f r.1, r.2.map f) := by
  have hfind : (c.map f).called.find? (·.1 == t) =
      (c.called.find? (·.1 == t)).map fun w => (w.1, f w.2) := by
    rw [called_map, List.find?_map]
    rfl
  have herase : (c.map f).waiting.eraseP (·.1 == t) =
      (c.waiting.eraseP (·.1 == t)).map fun w => (w.1, f w.2) := by
    rw [waiting_map, List.eraseP_map]
    rfl
  unfold enter?
  by_cases h : c.items.length < c.capacity
  · have h' : (c.map f).items.length < (c.map f).capacity := by simpa using h
    rw [dif_pos h, dif_pos h', hfind, herase]
    cases c.called.find? (·.1 == t) with
    | none => rfl
    | some w => simp [put, map]
  · have h' : ¬ (c.map f).items.length < (c.map f).capacity := by simpa using h
    rw [dif_neg h, dif_neg h']
    rfl

theorem receive?_map : (c.map f).receive? = c.receive?.map fun r => (f r.1, r.2.map f) := by
  obtain ⟨capacity, items, waiting, ticket, isClosed, h⟩ := c
  cases items <;> rfl

end Channel

namespace Pool

variable {J : Type} (f : J → J)

def Phase.map : Phase J → Phase J
  | waiting job => waiting (job.map f)
  | closed job => closed (job.map f)
  | busy job => busy (f job)
  | crashed job => crashed (f job)
  | p => p

def Dispatcher.map : Dispatcher J → Dispatcher J
  | holding job => holding (f job)
  | offering job worker => offering (f job) worker
  | d => d

def Move.map : Move J → Move J
  | submit job => submit (f job)
  | m => m

namespace State

/-- The pool with other jobs, and without a record of what happened. -/
def relabel (s : State J) : State J where
  intake := s.intake.map f
  registry := s.registry
  dispatcher := s.dispatcher.map f
  workers := s.workers.map (·.map f)
  shutdown := s.shutdown

/-- The pool without a record of what happened. -/
def forget (s : State J) : State J := { s with log := [] }

section

variable (s : State J) (i : Nat) (p : Phase J) (h : Happening J)

@[simp] theorem intake_relabel : (s.relabel f).intake = s.intake.map f := rfl

@[simp] theorem registry_relabel : (s.relabel f).registry = s.registry := rfl

@[simp] theorem dispatcher_relabel : (s.relabel f).dispatcher = s.dispatcher.map f := rfl

@[simp] theorem workers_relabel : (s.relabel f).workers = s.workers.map (·.map f) := rfl

@[simp] theorem shutdown_relabel : (s.relabel f).shutdown = s.shutdown := rfl

@[simp] theorem isEnding_relabel : (s.relabel f).isEnding = s.isEnding := rfl

@[simp] theorem places_relabel : (s.relabel f).places = s.places := by simp [places]

@[simp] theorem dispatcherEnded_relabel : (s.relabel f).dispatcherEnded = s.dispatcherEnded := by
  unfold dispatcherEnded
  rw [dispatcher_relabel]
  cases s.dispatcher <;> rfl

@[simp] theorem workersEnded_relabel : (s.relabel f).workersEnded = s.workersEnded := by
  unfold workersEnded
  rw [workers_relabel, List.all_map]
  congr 1
  funext p
  cases p <;> rfl

@[simp] theorem bound_relabel : (s.relabel f).bound = s.bound := by simp [bound]

@[simp] theorem relabel_note : (s.note h).relabel f = s.relabel f := rfl

@[simp] theorem relabel_put : (s.put i p).relabel f = (s.relabel f).put i (p.map f) := by
  simp [relabel, put, List.map_set]

@[simp] theorem forget_note : (s.note h).forget = s.forget := rfl

@[simp] theorem forget_put : (s.put i p).forget = s.forget.put i p := rfl

@[simp] theorem forget_relabel : (s.relabel f).forget = s.relabel f := rfl

end

/-- A move of a relabelled pool. -/
theorem step_relabel (s : State J) (m : Move J) :
    ((s.relabel f).step (m.map f)).map forget = (s.step m).map (relabel f) := by
  cases m with
  | submit job =>
    simp only [Move.map, step, submit, intake_relabel, Channel.send?_map]
    cases s.intake.send? job with
    | none => rfl
    | some r =>
      obtain ⟨_ | ticket, d⟩ := r <;> rfl
  | enter t =>
    simp only [Move.map, step, intake_relabel, Channel.enter?_map]
    cases s.intake.enter? t <;> rfl
  | stop | abandon =>
    simp only [Move.map, step, isEnding_relabel]
    by_cases h : s.isEnding = true <;> simp only [h, if_true] <;> rfl
  | decide i =>
    simp only [Move.map, step, workers_relabel, List.getElem?_map, shutdown_relabel]
    cases s.workers[i]? with
    | none => rfl
    | some p =>
      by_cases h : s.shutdown = .stopped <;> cases p <;> simp [Phase.map, h]
  | ask i =>
    simp only [Move.map, step, workers_relabel, List.getElem?_map, dispatcherEnded_relabel,
      registry_relabel, places_relabel]
    cases s.workers[i]? with
    | none => rfl
    | some p =>
      cases p with
      | asking =>
        by_cases hd : s.dispatcherEnded = true
        · simp [Phase.map, hd]
        · by_cases hr : s.registry.length < s.places
          · simp [Phase.map, hd, hr, relabel, put, forget, List.map_set]
          · simp [Phase.map, hd, hr]
      | _ => rfl
  | withdraw i =>
    simp only [Move.map, step, workers_relabel, List.getElem?_map, isEnding_relabel]
    cases s.workers[i]? with
    | none => rfl
    | some p => by_cases h : s.isEnding = true <;> cases p <;> simp [Phase.map, h]
  | start i =>
    simp only [Move.map, step, workers_relabel, List.getElem?_map, dispatcherEnded_relabel]
    cases s.workers[i]? with
    | none => rfl
    | some p =>
      cases p with
      | waiting job =>
        cases job with
        | none => by_cases h : s.dispatcherEnded = true <;> simp [Phase.map, h]
        | some job => simp [Phase.map]
      | _ => rfl
  | look i | finish i | crash i =>
    simp only [Move.map, step, workers_relabel, List.getElem?_map]
    cases s.workers[i]? with
    | none => rfl
    | some p =>
      cases p with
      | closed job => cases job <;> simp [Phase.map]
      | _ => simp [Phase.map]
  | receive =>
    simp only [Move.map, step, dispatcher_relabel, intake_relabel, Channel.receive?_map]
    cases s.dispatcher <;> cases s.intake.receive? <;> rfl
  | take =>
    simp only [Move.map, step, dispatcher_relabel, registry_relabel]
    cases s.dispatcher <;> cases s.registry <;> rfl
  | hand =>
    simp only [Move.map, step, dispatcher_relabel, workers_relabel, List.getElem?_map]
    cases s.dispatcher with
    | offering job i =>
      have hv : ((s.workers[i]?).map (·.map f)).any (·.isVacant) =
          (s.workers[i]?).any (·.isVacant) := by
        cases s.workers[i]? with
        | none => rfl
        | some p =>
          cases p with
          | waiting job => cases job <;> rfl
          | _ => rfl
      simp only [Dispatcher.map, hv]
      by_cases h : (s.workers[i]?).any (·.isVacant) = true
      · simp only [h, if_true]
        simp [relabel, put, forget, note, List.map_set, Phase.map, Dispatcher.map]
      · simp only [h]
        rfl
    | _ => rfl
  | give =>
    simp only [Move.map, step, dispatcher_relabel, registry_relabel, isEnding_relabel,
      workersEnded_relabel]
    cases s.dispatcher with
    | receiving => by_cases h : s.isEnding = true <;> simp only [Dispatcher.map, h] <;> rfl
    | holding job =>
      by_cases h : (s.isEnding || (s.registry.isEmpty && s.workersEnded)) = true <;>
        simp only [Dispatcher.map, h] <;> rfl
    | _ => rfl
  | close =>
    simp only [Move.map, step, dispatcher_relabel]
    cases s.dispatcher <;> rfl
  | drain =>
    simp only [Move.map, step, dispatcher_relabel, intake_relabel, Channel.receive?_map]
    cases s.dispatcher <;> cases s.intake.receive? <;> rfl

/-- Pools that differ in labels only make the same moves, and go on doing so. -/
theorem step_alike {s t : State J} (h : s.relabel f = t.relabel f) (m m' : Move J)
    (hm : m.map f = m'.map f) : (s.step m).map (relabel f) = (t.step m').map (relabel f) := by
  rw [← step_relabel, ← step_relabel, h, hm]

/-- What comes first does not depend on what the jobs are. -/
theorem next?_relabel (s : State J) : (s.relabel f).next? = s.next? := by
  have hentry : (s.relabel f).entryMove? = s.entryMove? := by
    simp only [entryMove?, intake_relabel, Channel.called_map]
    cases s.intake.called <;> rfl
  have hworker (i : Nat) (p : Phase J) : (s.relabel f).workerMove? i (p.map f) = s.workerMove? i p := by
    cases p with
    | asking => simp [workerMove?, Phase.map]
    | waiting job =>
      cases job with
      | none =>
        by_cases h : s.dispatcherEnded = true <;> by_cases he : s.isEnding = true <;>
          simp [workerMove?, Phase.map, h, he]
      | some job => rfl
    | _ => rfl
  have hworkers : ((s.relabel f).workers.zipIdx.findSome? fun p => (s.relabel f).workerMove? p.2 p.1) =
      s.workers.zipIdx.findSome? fun p => s.workerMove? p.2 p.1 := by
    rw [workers_relabel, List.zipIdx_map, List.findSome?_map]
    congr 1
    funext p
    exact hworker p.2 p.1
  have hdispatcher : (s.relabel f).dispatcherMove? = s.dispatcherMove? := by
    unfold dispatcherMove?
    rw [dispatcher_relabel]
    cases s.dispatcher <;> simp [Dispatcher.map]
  unfold next?
  rw [hentry, hworkers, hdispatcher]

end State

end Pool

end Herald
