import Herald.Proofs.Pool.Tenure
import Mathlib.Data.List.Nodup

/-!
# Every job is accounted for

A job that is accepted is run by exactly one worker, once, or it is dropped and counted, once; a job
that is refused is neither run nor counted. This holds for every run of a pool, whatever comes
first of what can happen.

* `jobs_accounted`: the books of a pool at every moment, and once it has stopped.
-/

namespace Herald.Pool

variable {J : Type} {s t : State J} {m : Move J} {moves : List (Move J)} {size capacity : Nat}

open Happening State

/-! ## What holds along a run -/

theorem State.Run.gate (run : Run (.create size capacity) moves s) : Gate s :=
  run.keeps (P := fun _ s => Gate s) (.create _ _) fun _ _ _ _ g h => g.step h

theorem State.Run.ledger (run : Run (.create size capacity) moves s) : Ledger moves s :=
  run.keeps (.create _ _) fun _ _ _ _ l h => l.step h

theorem State.Run.tenure (run : Run (.create size capacity) moves s) : Tenure s :=
  run.keeps (P := fun _ s => Tenure s) (.create _ _) fun _ _ _ _ e h => e.step h

/-- Nothing but a handler that breaks down makes a worker crash. -/
theorem State.Run.crashed_eq_nil (run : Run (.create size capacity) moves s)
    (sound : ∀ i, .crash i ∉ moves) : s.crashed = [] := by
  refine run.keeps (P := fun moves s => (∀ i, .crash i ∉ moves) → s.crashed = []) (fun _ => rfl)
    ?_ sound
  intro moves t m u ih h sound
  have ht := ih fun i hi => sound i (List.mem_cons_of_mem _ hi)
  cases h with
  | crash => exact absurd (List.mem_cons_self ..) (sound _)
  | close =>
    have hn := pick_refusals (f := crashed?) (fun _ => rfl) t.intake.waiting
    simpa [State.crashed, State.closeIntake, hn] using ht
  | _ => simpa [State.crashed, crashed?] using ht

/-! ## The phases of a pool that has stopped -/

theorem report?_cases {r : Report} (h : s.report? = some r) :
    ∃ n, s.dispatcher = .ended n ∧ s.workersEnded = true ∧ r = ⟨s.statuses, n⟩ := by
  unfold report? at h
  split at h
  · next n e =>
    split at h <;> cases h
    next hw =>
    exact ⟨n, e, (Bool.and_eq_true_iff.1 hw).2, rfl⟩
  · cases h

/-- A worker that has ended has stopped, unless its handler broke down. -/
theorem stopped_of_ended {i : Nat} {p : Phase J} (he : s.workersEnded = true)
    (e : Tenure s) (hc : s.crashed = []) (h : s.workers[i]? = some p) : p = .stopped := by
  have hp := List.all_eq_true.1 he p (List.mem_of_getElem? h)
  cases p with
  | stopped => rfl
  | crashed job =>
    have hb := e.crashed_eq h
    rw [hc] at hb
    cases hb
  | _ => cases hp

/-- Nothing is left of a phase in a pool whose workers have stopped. -/
theorem each_eq_nil (left : Phase J → Option J) (hl : left .stopped = none)
    (he : ∀ (i : Nat) p, s.workers[i]? = some p → p = Phase.stopped) : s.each left = [] := by
  apply List.eq_nil_iff_forall_not_mem.2
  rintro ⟨i, job⟩ hm
  obtain ⟨p, hp, hj⟩ := Option.bind_eq_some_iff.1 (mem_each.1 hm)
  rw [he i p hp, hl] at hj
  cases hj

/-! ## Jobs -/

/-- A job that was accepted is one job of one worker, or one that was dropped. -/
theorem unique_of_nodup {l : List (Nat × J)} {dropped : List J} {job : J}
    (h : (l.map (·.2) ++ dropped).Nodup) (hm : job ∈ l.map (·.2) ++ dropped) :
    (∃! i, (i, job) ∈ l) ∧ job ∉ dropped ∨
      job ∈ dropped ∧ ∀ i, (i, job) ∉ l := by
  obtain ⟨hl, -, hd⟩ := List.nodup_append.1 h
  rcases List.mem_append.1 hm with hj | hj
  · obtain ⟨⟨i, job⟩, hi, rfl⟩ := List.mem_map.1 hj
    refine .inl ⟨⟨i, hi, ?_⟩, fun hj' => hd _ hj _ hj' rfl⟩
    intro k hk
    exact congrArg Prod.fst (List.inj_on_of_nodup_map hl hk hi rfl)
  · exact .inr ⟨hj, fun i hi => hd _ (List.mem_map.2 ⟨_, hi, rfl⟩) _ hj rfl⟩

/-- The books of a pool, at every moment of a run in which no handler breaks down.

Each job that was submitted was accepted, refused or still waits to come into the intake. The jobs
that were handed to workers come first among those accepted, then those that were dropped, then
those about which nothing is decided; each worker starts what it was handed and finishes what it
has started, in that order. A job that was refused is neither handed over nor dropped.

Once the pool has been stopped and its report is there, each accepted job was run by one worker,
once, or was dropped and is counted in the report, once. -/
theorem jobs_accounted (run : Run (.create size capacity) moves s) (sound : ∀ i, .crash i ∉ moves) :
    (submissions moves).Perm (s.accepted ++ s.refused ++ s.intake.waiting.map (·.2)) ∧
    s.accepted = s.handed.map (·.2) ++ s.dropped ++ s.queued ∧
    (∀ i, ofWorker i s.finished <+: ofWorker i s.started ∧
      ofWorker i s.started <+: ofWorker i s.handed) ∧
    ((submissions moves).Nodup →
      ∀ job ∈ s.refused, job ∉ s.handed.map (·.2) ∧ job ∉ s.dropped) ∧
    ∀ r, s.report? = some r →
      s.accepted = s.handed.map (·.2) ++ s.dropped ∧
      s.handed.Perm s.started ∧ s.started.Perm s.finished ∧
      r.dropped = s.dropped.length ∧
      s.accepted.length = s.finished.length + r.dropped ∧
      ((submissions moves).Nodup →
        s.finished.Nodup ∧ s.dropped.Nodup ∧
        ∀ job ∈ s.accepted,
          (∃! i, (i, job) ∈ s.finished) ∧ job ∉ s.dropped ∨
          job ∈ s.dropped ∧ ∀ i, (i, job) ∉ s.started) := by
  have l := run.ledger
  have e := run.tenure
  refine ⟨l.submitted, l.order, fun i => ⟨⟨_, (e.begun i).symm⟩, e.started_le_handed i⟩,
    ?_, ?_⟩
  · intro hn job hr
    have hd := (List.nodup_append.1 (l.submitted.nodup_iff.1 hn)).1
    have hd := (List.nodup_append.1 hd).2.2
    rw [l.order] at hd
    exact ⟨fun hm => hd _ (by simp [hm]) _ hr rfl, fun hm => hd _ (by simp [hm]) _ hr rfl⟩
  · intro r h
    obtain ⟨n, hd, hw, rfl⟩ := report?_cases h
    have hs (i : Nat) (p : Phase J) : s.workers[i]? = some p → p = .stopped :=
      stopped_of_ended hw e (run.crashed_eq_nil sound)
    have hq : s.queued = [] := by
      have hi := run.gate.emptied (by simp [dispatcherEnded, hd])
      simp [queued, hd, hi, Dispatcher.hand]
    have ha : s.accepted = s.handed.map (·.2) ++ s.dropped := by rw [l.order, hq, List.append_nil]
    have hf : s.handed.Perm s.finished := by
      simpa [each_eq_nil Phase.held? rfl hs] using e.handed_perm
    have hb : s.started.Perm s.finished := by
      simpa [each_eq_nil Phase.begun? rfl hs] using e.started_perm
    have hc : s.dropped.length = n := by rw [l.count, hd]; rfl
    refine ⟨ha, hf.trans hb.symm, hb, hc.symm, ?_, ?_⟩
    · rw [ha, List.length_append, List.length_map, hf.length_eq, hc]
    · intro hn
      have hn := (List.nodup_append.1 (l.submitted.nodup_iff.1 hn)).1
      have hn := (List.nodup_append.1 hn).1
      have hp : s.accepted.Perm (s.finished.map (·.2) ++ s.dropped) :=
        ha ▸ (hf.map _).append_right _
      have hu := hp.nodup_iff.1 hn
      obtain ⟨hm, hd, -⟩ := List.nodup_append.1 hu
      refine ⟨hm.of_map, hd, ?_⟩
      intro job hj
      rcases unique_of_nodup hu (hp.mem_iff.1 hj) with hone | hdrop
      · exact .inl hone
      · exact .inr ⟨hdrop.1, fun i hi => hdrop.2 i (hb.mem_iff.1 hi)⟩

/-- A pool with one worker and one place is stopped while the dispatcher has the worker's slot. The
worker closes the slot first, and the second job comes back. Latest first. -/
def lateHandover : List (Move Nat) :=
  [.drain, .drain, .close, .give, .look 0, .hand, .withdraw 0, .stop, .take, .ask 0, .decide 0,
    .finish 0, .submit 4, .submit 3, .receive, .submit 2, .start 0, .hand, .take, .receive, .submit 1,
    .ask 0, .decide 0]

theorem jobs_accounted_lateHandover : ∃ s, Run (.create 1 1) lateHandover s ∧
    s.report? = some ⟨[.stopped], 2⟩ ∧ s.finished = [(0, 1)] ∧ s.dropped = [2, 3] ∧
    s.refused = [4] ∧ s.accepted = s.handed.map (·.2) ++ s.dropped ∧
    s.accepted.length = s.finished.length + 2 := by
  obtain ⟨s, hs⟩ : ∃ s, play State.step (State.create 1 1) lateHandover = some s := ⟨_, rfl⟩
  have hr : s.report? = some ⟨[.stopped], 2⟩ := by cases hs; rfl
  have h := (jobs_accounted (trace_iff.2 hs) (by simp [lateHandover])).2.2.2.2 _ hr
  refine ⟨s, trace_iff.2 hs, hr, ?_, ?_, ?_, h.1, h.2.2.2.2.1⟩ <;> cases hs <;> rfl

end Herald.Pool
