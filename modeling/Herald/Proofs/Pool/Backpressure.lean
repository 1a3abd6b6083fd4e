import Herald.Proofs.Pool.Capacity

/-!
# Backpressure

A pool takes in no more than its workers, its dispatcher and its intake have room for. When it comes
to rest without being told to end, it has not stalled: a job waits only if every worker has one.

* `State.Settled`: nothing happens any more without something from outside, or the end of a job.
* `State.Settled.cases`: a pool that has settled has no job in stock, or it is all busy.
* `load_bounded`: how much is inside a pool at every moment, and where it is once the pool settles.
-/

namespace Herald.Pool

variable {J : Type} {s t : State J} {m : Move J} {moves : List (Move J)} {size capacity : Nat}

open State

/-! ## What holds along a run -/

theorem State.Run.sized (run : Run (.create size capacity) moves s) : Sized size (max capacity 1) s :=
  run.keeps (P := fun _ s => Sized size (max capacity 1) s) ⟨List.length_replicate, rfl⟩
    fun _ _ _ _ z h => z.step h

theorem State.Run.slots (run : Run (.create size capacity) moves s) : Slots s :=
  run.keeps (P := fun _ s => Slots s) (.create _ _) fun _ _ _ _ l h => l.step h

theorem State.Run.alive (run : Run (.create size capacity) moves s) : Alive s :=
  run.keeps (P := fun _ s => Alive s) (.create _ _) fun _ _ _ _ a h => a.step h

theorem State.Run.room (run : Run (.create size capacity) moves s) : Room s :=
  (run.keeps (P := fun _ s => Gate s ∧ Room s) ⟨.create _ _, .create _ _⟩
    fun _ _ _ _ ⟨g, r⟩ h => ⟨g.step h, r.step g h⟩).2

/-! ## Settled pools -/

/-- The pool makes no move on its own. -/
def State.Settled (s : State J) : Prop := ∀ m : Move J, m.isOwn = true → s.step m = none

namespace State.Settled

/-- In a pool that has settled a worker waits for a job, or it is busy. -/
theorem phase (h : s.Settled) (l : Slots s) (a : Alive s) (hn : s.shutdown = .none) {i : Nat}
    {p : Phase J} (hp : s.workers[i]? = some p) :
    (p = .waiting none ∧ s.dispatcherEnded = false) ∨ ∃ job, p = .busy job ∨ p = .crashed job := by
  have hstay := a.stay hn p (List.mem_of_getElem? hp)
  cases p with
  | deciding => have := h (.decide i) rfl; simp [State.step, hp] at this
  | asking =>
    have := h (.ask i) rfl
    simp only [State.step, hp, l.has_place hp rfl, if_true] at this
    split at this <;> cases this
  | waiting job =>
    cases job with
    | none =>
      have := h (.start i) rfl
      exact .inl ⟨rfl, by simpa [State.step, hp] using this⟩
    | some job => have := h (.start i) rfl; simp [State.step, hp] at this
  | closed | stopped => cases hstay
  | busy job => exact .inr ⟨job, .inl rfl⟩
  | crashed job => exact .inr ⟨job, .inr rfl⟩

/-- Of a pool that has settled, the dispatcher waits for a job that is not there, or it waits for a
worker and all are busy, or it has ended because all have broken down. -/
theorem cases (h : s.Settled) (l : Slots s) (a : Alive s) (hn : s.shutdown = .none) :
    s.dispatcher = .receiving ∧ s.intake.items = [] ∨
    (∀ p ∈ s.workers, p.status = .busy) ∧
      ((∃ job, s.dispatcher = .holding job) ∨ s.dispatcherEnded = true) := by
  cases hd : s.dispatcher with
  | receiving =>
    have := h .receive rfl
    cases e : s.intake.receive? with
    | none => exact .inl ⟨rfl, Channel.receive?_eq_none.1 e⟩
    | some r => simp [State.step, hd, e] at this
  | holding job =>
    refine .inr ⟨?_, .inl ⟨job, rfl⟩⟩
    intro p hp
    obtain ⟨i, hi⟩ := List.mem_iff_getElem?.1 hp
    rcases phase h l a hn hi with ⟨rfl, he⟩ | ⟨job, rfl | rfl⟩
    · have hm := l.waits he i hi
      have := h .take rfl
      cases hr : s.registry with
      | nil => simp [State.slots, hd, hr, Dispatcher.offered] at hm
      | cons k rest => simp [State.step, hd, hr] at this
    · rfl
    · rfl
  | offering job i =>
    have := h .hand rfl
    simp only [State.step, hd] at this
    split at this <;> cases this
  | closing n => have := h .close rfl; simp [State.step, hd] at this
  | draining n =>
    have := h .drain rfl
    cases e : s.intake.receive? <;> simp [State.step, hd, e] at this
  | ended n =>
    refine .inr ⟨?_, .inr (by simp [dispatcherEnded, hd])⟩
    intro p hp
    have hc := a.wrecked hn (by rw [hd]; rfl) p hp
    cases p with
    | crashed job => rfl
    | _ => cases hc

/-- Whoever waits to submit a job to a pool that has settled finds no room. -/
theorem full (h : s.Settled) (hw : s.intake.waiting ≠ []) :
    s.intake.items.length = s.intake.capacity := by
  refine Nat.le_antisymm s.intake.length_items_le (Nat.not_lt.1 ?_)
  intro hf
  obtain ⟨w, -, hc⟩ := Channel.exists_calls hw hf
  obtain ⟨r, e⟩ := Channel.enter?_of_calls hc
  have := h (.enter w.1) rfl
  simp [State.step, e] at this

/-- In a pool that has settled and has no job in stock, whatever was accepted was started. -/
theorem started_perm (h : s.Settled) (l : Slots s) (a : Alive s) (hn : s.shutdown = .none)
    (b : Ledger moves s) (e : Tenure s) (hd : s.dispatcher = .receiving)
    (hi : s.intake.items = []) : (s.started.map (·.2)).Perm s.accepted := by
  have he : s.each Phase.begun? = s.each Phase.held? := by
    unfold State.each
    apply List.filterMap_congr
    rintro ⟨p, i⟩ hp
    obtain ⟨rfl, -⟩ | ⟨job, rfl | rfl⟩ := phase h l a hn (List.mem_zipIdx_iff_getElem?.1 hp) <;> rfl
  have hs : s.started.Perm s.handed := (he ▸ e.started_perm).trans e.handed_perm.symm
  have hq : s.queued = [] := by simp [queued, hd, hi, Dispatcher.hand]
  have hx : s.dropped = [] := b.dropped_eq_nil (by rw [hd]; rfl)
  rw [b.order, hx, hq, List.append_nil, List.append_nil]
  exact hs.map _

end State.Settled

/-! ## The load of a pool -/

/-- A worker is busy from the start of a job to its end, and for ever if its handler breaks down at
the job. -/
theorem busy_cases (e : Tenure s) {i : Nat} {p : Phase J} (h : s.workers[i]? = some p) :
    (p.status = .busy ∧ ∃ job, ofWorker i s.started = ofWorker i s.finished ++ [job] ∧
      (ofWorker i s.crashed = [] ∨ ofWorker i s.crashed = [job])) ∨
    (p.status ≠ .busy ∧ ofWorker i s.started = ofWorker i s.finished ∧ ofWorker i s.crashed = []) := by
  have hb := e.started_eq h
  have hc := e.crashed_eq h
  cases p with
  | busy job => exact .inl ⟨rfl, job, hb, .inl hc⟩
  | crashed job => exact .inl ⟨rfl, job, hb, .inr hc⟩
  | _ => exact .inr ⟨nofun, hb.trans (List.append_nil _), hc⟩

/-- The jobs inside a pool, at every moment of a run and whatever handlers do.

At most `size` jobs were started and are not finished. A worker is busy exactly if it has started a
job that it has not finished: it runs the job, or its handler broke down at it. The jobs that were
accepted and are not finished are at most one for each worker, one for the dispatcher and those for
which the intake has places.

Once the pool has settled, and was not told to end, whatever was accepted was started, or every
worker is busy; and if someone waits to submit a job, every worker is busy, the dispatcher holds a
job and the intake is full. -/
theorem load_bounded (run : Run (.create size capacity) moves s) :
    s.started.length ≤ s.finished.length + size ∧
    s.accepted.length ≤ s.finished.length + (size + 1 + max capacity 1) ∧
    s.statuses.length = size ∧
    (∀ i status, s.statuses[i]? = some status →
      (status = .busy ∧ ∃ job, ofWorker i s.started = ofWorker i s.finished ++ [job] ∧
        (ofWorker i s.crashed = [] ∨ ofWorker i s.crashed = [job])) ∨
      (status ≠ .busy ∧ ofWorker i s.started = ofWorker i s.finished ∧
        ofWorker i s.crashed = [])) ∧
    (s.Settled → s.shutdown = .none →
      ((s.started.map (·.2)).Perm s.accepted ∨ ∀ status ∈ s.statuses, status = .busy) ∧
      (s.intake.waiting ≠ [] → (∀ status ∈ s.statuses, status = .busy) ∧
        (∃ job, s.dispatcher = .holding job) ∧ s.intake.items.length = max capacity 1)) := by
  have z := run.sized
  have l := run.slots
  have a := run.alive
  have b := run.ledger
  have e := run.tenure
  have hs (left : Phase J → Option J) : (s.each left).length ≤ size :=
    z.workers ▸ s.length_each_le left
  refine ⟨?_, ?_, by simp [statuses, z.workers], ?_,
    fun h hn => ⟨?_, ?_⟩⟩
  · have hb := hs Phase.begun?
    rw [e.started_perm.length_eq, List.length_append]
    exact Nat.add_le_add_left hb _
  · have hh := e.handed_perm.length_eq
    have hr := run.room.length_le
    have hb := hs Phase.held?
    have hc := b.count
    rw [z.intake] at hr
    rw [List.length_append] at hh
    rw [b.order, List.length_append, List.length_append, List.length_map]
    omega
  · intro i status hi
    simp only [statuses, List.getElem?_map, Option.map_eq_some_iff] at hi
    obtain ⟨p, hp, rfl⟩ := hi
    exact busy_cases e hp
  · rcases h.cases l a hn with ⟨hd, hi⟩ | ⟨hb, -⟩
    · exact .inl (h.started_perm l a hn b e hd hi)
    · exact .inr (List.forall_mem_map.2 hb)
  · intro hw
    have hi := (h.full hw).trans z.intake
    rcases h.cases l a hn with ⟨-, hi'⟩ | ⟨hb, hd⟩
    · rw [hi', List.length_nil] at hi; omega
    · refine ⟨List.forall_mem_map.2 hb, hd.resolve_right ?_, hi⟩
      intro he
      exact hw (run.gate.turnedAway (run.gate.isClosed_of_ended he))

/-- A pool with one worker and one place gets four jobs while the first one is run. Latest first. -/
def overload : List (Move Nat) :=
  [.submit 4, .submit 3, .receive, .submit 2, .start 0, .hand, .take, .receive, .submit 1, .ask 0,
    .decide 0]

theorem load_bounded_overload : ∃ s, Run (.create 1 1) overload s ∧ s.Settled ∧
    s.intake.waiting = [(0, 4)] ∧ s.finished = [] ∧ s.accepted.length ≤ 0 + (1 + 1 + max 1 1) ∧
    (∀ status ∈ s.statuses, status = .busy) ∧ (∃ job, s.dispatcher = .holding job) ∧
    s.intake.items.length = 1 := by
  obtain ⟨s, hs⟩ : ∃ s, play State.step (State.create 1 1) overload = some s := ⟨_, rfl⟩
  have h := load_bounded (trace_iff.2 hs)
  have hw : s.intake.waiting = [(0, 4)] := by cases hs; rfl
  have hf : s.finished = [] := by cases hs; rfl
  have hn : s.shutdown = .none := by cases hs; rfl
  have hset : s.Settled := by
    cases hs
    intro m hm
    cases m with
    | decide i | ask i | start i | withdraw i | look i => cases i <;> rfl
    | submit | stop | abandon | finish | crash => cases hm
    | _ => rfl
  have hb := (h.2.2.2.2 hset hn).2 (by rw [hw]; exact nofun)
  exact ⟨s, trace_iff.2 hs, hset, hw, hf, by simpa [hf] using h.2.1, hb⟩

/-- A worker may be busy without running a job: it stays so when its handler breaks down. -/
theorem not_busy_iff_running : ¬ ∀ (size capacity : Nat) (moves : List (Move Nat)) (s : State Nat),
    Run (.create size capacity) moves s → ∀ i status, s.statuses[i]? = some status →
      (status = .busy ↔
        ∃ job, ofWorker i s.started = ofWorker i s.finished ++ ofWorker i s.crashed ++ [job]) := by
  intro h
  obtain ⟨s, hs⟩ : ∃ s, play State.step (State.create 1 1)
      [.crash 0, .start 0, .hand, .take, .receive, .submit 1, .ask 0, .decide 0] = some s := ⟨_, rfl⟩
  have hb := h 1 1 _ s (trace_iff.2 hs) 0 .busy (by cases hs; rfl)
  obtain ⟨job, hj⟩ := hb.1 rfl
  have hst : ofWorker 0 s.started = [1] := by cases hs; rfl
  have hcr : ofWorker 0 s.crashed = [1] := by cases hs; rfl
  have hl := congrArg List.length hj
  simp only [hst, hcr, List.length_append, List.length_cons, List.length_nil] at hl
  omega

end Herald.Pool
