import Herald.Proofs.Pool.Rest

/-!
# Stopping a pool

Whoever stops a pool waits for its report. A job that a worker was handed is still run, also if it was
handed over at the last moment; whatever else was submitted is dropped or refused, and nobody waits for it.

* `Step.closed`: a closed intake stays closed, and lets nothing in.
* `Leads`: what a pool comes to, whichever of the possible moves come first.
* `Halted`: what a stopped pool is like once it does nothing on its own.
* `stop_returns`: when the report comes, and what is the case then.
-/

namespace Herald.Pool

variable {J : Type} {s t : State J} {m : Move J} {moves : List (Move J)} {size capacity : Nat} {r : Report}

open Happening State

/-! ## A closed intake -/

/-- A closed intake stays closed, and lets nothing in. -/
theorem Step.closed (h : Step s m t) (g : Gate s) (hc : s.intake.isClosed = true) :
    t.intake.isClosed = true ∧ t.accepted = s.accepted := by
  have hnote {intake : Channel J} {happening : Happening J} (hi : intake.isClosed = s.intake.isClosed)
      (hn : accepted? happening = none) :
      intake.isClosed = true ∧ pick accepted? (happening :: s.log) = pick accepted? s.log := by
    rw [pick_cons, hn]
    exact ⟨hi.trans hc, List.append_nil _⟩
  cases h with
  | accept e | park e =>
    rw [(Channel.send?_keeps e).2.2] at hc
    cases hc
  | enter e =>
    have hw := List.mem_of_mem_take (Channel.enter?_cases e).1
    rw [g.turnedAway hc] at hw
    cases hw
  | refuse | start | find | finish | crash | hand | drop => exact hnote rfl rfl
  | receive _ e => exact ⟨(Channel.receive?_keeps e).2.trans hc, rfl⟩
  | drain _ e => exact hnote (Channel.receive?_keeps e).2 rfl
  | close =>
    have hn := pick_refusals (f := accepted?) (fun _ => rfl) s.intake.waiting
    exact ⟨rfl, by simp [State.accepted, closeIntake, hn]⟩
  | _ => exact ⟨hc, rfl⟩

/-- What was not accepted before the intake was closed is not accepted later. -/
theorem State.Run.closed (run : Run s moves t) (g : Gate s) (hc : s.intake.isClosed = true) :
    t.intake.isClosed = true ∧ t.accepted = s.accepted := by
  have h := run.keeps (P := fun _ t => Gate t ∧ t.intake.isClosed = true ∧ t.accepted = s.accepted)
    ⟨g, hc, rfl⟩ fun _ _ _ _ ⟨g, hc, ha⟩ h => ⟨g.step h, (h.closed g hc).imp_right (·.trans ha)⟩
  exact h.2

/-! ## Reports -/

theorem report?_eq_some : s.report? = some r ↔ ∃ n, s.dispatcher = .ended n ∧ s.shutdown = .stopped ∧
    s.workersEnded = true ∧ r = ⟨s.statuses, n⟩ := by
  unfold report?
  split
  · next n hd =>
    simp only [hd, Dispatcher.ended.injEq, exists_eq_left', Option.ite_none_right_eq_some, Option.some.injEq,
      Bool.and_eq_true, decide_eq_true_eq, and_assoc, @eq_comm _ r]
  · next hd => exact ⟨nofun, fun ⟨n, hn, _⟩ => absurd hn (hd n)⟩

theorem exists_report (hs : s.shutdown = .stopped) (hd : s.dispatcherEnded = true) :
    (∃ r, s.report? = some r) ↔ s.workersEnded = true := by
  unfold dispatcherEnded at hd
  split at hd
  · next n hn => simp [report?_eq_some, hs, hn]
  · cases hd

/-- Nothing more happens to a pool after its report than that jobs are refused. -/
theorem Step.of_report (h : Step s m t) (g : Gate s) (hr : s.report? = some r) :
    ∃ job, m = .submit job ∧ t = s.note (.refused job) := by
  obtain ⟨n, hd, hs, hw, -⟩ := report?_eq_some.1 hr
  have hended {i : Nat} {p : Phase J} (hp : s.workers[i]? = some p) : p.hasEnded = true :=
    List.all_eq_true.1 hw p (List.mem_of_getElem? hp)
  have hc : s.intake.isClosed = true := g.isClosed_of_ended (by rw [dispatcherEnded, hd])
  cases h with
  | accept e | park e =>
    rw [(Channel.send?_keeps e).2.2] at hc
    cases hc
  | refuse => exact ⟨_, rfl, rfl⟩
  | enter e =>
    have hm := List.mem_of_mem_take (Channel.enter?_cases e).1
    rw [g.turnedAway hc] at hm
    cases hm
  | stop hn | abandon hn => rw [hs] at hn; cases hn
  | goOn h | leave h | register h | unheard h | start h | forgotten h => cases hended h
  | withdraw h | find h | findNone h | finish h | crash h => cases hended h
  | receive h | take h | hand h | handBack h | give h | drop h | close h | drain h | drained h =>
    rw [hd] at h
    cases h

/-- A report stands, and whoever submits a job after it is refused. -/
theorem State.Run.reported (run : Run s moves t) (g : Gate s) (hr : s.report? = some r) :
    t.report? = some r ∧ t.accepted = s.accepted ∧ t.refused = s.refused ++ (submissions moves).reverse := by
  refine (run.keeps (P := fun moves t => Gate t ∧ t.report? = some r ∧ t.accepted = s.accepted ∧
    t.refused = s.refused ++ (submissions moves).reverse) ⟨g, hr, rfl, ?_⟩ ?_).2
  · exact (List.append_nil _).symm
  · rintro moves t m u ⟨g, hr, ha, hf⟩ h
    refine ⟨g.step h, ?_⟩
    obtain ⟨job, rfl, rfl⟩ := h.of_report g hr
    refine ⟨hr, ?_, ?_⟩
    · rw [← ha]
      exact (pick_cons ..).trans (List.append_nil _)
    · have hs : submissions (.submit job :: moves) = job :: submissions moves := rfl
      rw [hs, List.reverse_cons, ← List.append_assoc, ← hf]
      exact pick_cons ..

/-! ## Whatever comes first -/

/-- Whichever possible moves of a kind come first, one after the other, a pool comes to a state like that:
until it has, such a move is possible. -/
inductive Leads (kind : Move J → Bool) (P : State J → Prop) : State J → Prop
  | here {s : State J} : P s → Leads kind P s
  | next {s : State J} : (∃ m t, kind m = true ∧ s.step m = some t) →
    (∀ m t, kind m = true → s.step m = some t → Leads kind P t) → Leads kind P s

/-- Moves from within come to an end, and what is the case then is what they lead to. -/
theorem leads {kind : Move J → Bool} {P : State J → Prop} (hk : ∀ m, kind m = true → m.isOutside = false)
    (h : ∀ moves t, Run s moves t → (∀ m ∈ moves, kind m = true) →
      (∀ m, kind m = true → t.step m = none) → P t) : Leads kind P s := by
  induction hn : s.load (fun _ => 0) using Nat.strongRecOn generalizing s with
  | ind n ih =>
    by_cases hs : ∀ m, kind m = true → s.step m = none
    · exact .here (h [] s .refl nofun hs)
    · push Not at hs
      obtain ⟨m, hm, hne⟩ := hs
      obtain ⟨t, ht⟩ := Option.ne_none_iff_exists'.1 hne
      refine .next ⟨m, t, hm, ht⟩ fun m t hm ht => ?_
      have hl : t.load (fun _ => 0) < n := hn ▸ (Step.of_step ht).load_lt _ (hk m hm)
      refine ih _ hl (fun moves u run hall => ?_) rfl
      refine h (moves ++ [m]) u (Trace.trans (.step m .refl ht) run) fun k hk => ?_
      rcases List.mem_append.1 hk with hk | hk
      · exact hall k hk
      · exact List.mem_singleton.1 hk ▸ hm

/-- The pool makes such a move on its own, or a job comes to its end. -/
def Move.isSound : Move J → Bool
  | .submit _ | .stop | .abandon | .crash _ => false
  | _ => true

theorem isSound_of_isOwn (h : m.isOwn = true) : m.isSound = true := by
  cases m <;> first | rfl | cases h

theorem isOutside_of_isSound (h : m.isSound = true) : m.isOutside = false := by
  cases m <;> first | rfl | cases h

/-- What a pool has finished does not change by the moves that it makes on its own. -/
theorem Step.finished_own (h : Step s m t) (hm : m.isOwn = true) : t.finished = s.finished := by
  cases h with
  | accept | park | refuse | stop | abandon | finish | crash => cases hm
  | close =>
    have hn := pick_refusals (f := finished?) (fun _ => rfl) s.intake.waiting
    simp [State.finished, closeIntake, hn]
  | enter | start | find | hand | drop | drain => exact (pick_cons ..).trans (List.append_nil _)
  | _ => rfl

theorem Step.shutdown_sound (h : Step s m t) (hm : m.isSound = true) : t.shutdown = s.shutdown := by
  cases h with
  | stop | abandon => cases hm
  | _ => rfl

/-! ## Stopped pools -/

namespace State.Settled

/-- Of a stopped pool that has settled, the dispatcher has ended, and a worker has unless it is busy. -/
theorem phase_stopped (h : s.Settled) (l : Slots s) (hs : s.shutdown = .stopped) {i : Nat} {p : Phase J}
    (hp : s.workers[i]? = some p) : p.hasEnded = true ∨ ∃ job, p = .busy job := by
  cases p with
  | deciding => have := h (.decide i) rfl; simp [State.step, hp] at this
  | asking =>
    have := h (.ask i) rfl
    simp only [State.step, hp, l.has_place hp rfl, if_true] at this
    split at this <;> cases this
  | waiting job => have := h (.withdraw i) rfl; simp [State.step, hp, isEnding, hs] at this
  | closed job =>
    have := h (.look i) rfl
    cases job <;> simp [State.step, hp] at this
  | busy job => exact .inr ⟨job, rfl⟩
  | stopped | crashed => exact .inl rfl

theorem dispatcherEnded (h : s.Settled) (hs : s.shutdown = .stopped) : s.dispatcherEnded = true := by
  cases hd : s.dispatcher with
  | receiving | holding => have := h .give rfl; simp [State.step, hd, isEnding, hs] at this
  | offering job i =>
    have := h .hand rfl
    simp only [State.step, hd] at this
    split at this <;> cases this
  | closing n => have := h .close rfl; simp [State.step, hd] at this
  | draining n =>
    have := h .drain rfl
    cases e : s.intake.receive? <;> simp [State.step, hd, e] at this
  | ended n => rw [State.dispatcherEnded, hd]

end State.Settled

/-- No handler has broken down. -/
def State.IsSound (s : State J) : Prop := ∀ p ∈ s.workers, p.isCrashed = false

/-- A stopped pool that does nothing on its own: whoever is not at a job has ended, and nobody waits. -/
structure Halted (s : State J) : Prop where
  phases : ∀ p ∈ s.workers, p = .stopped ∨ ∃ job, p = .busy job
  queued : s.queued = []
  waiting : s.intake.waiting = []
  /-- The report is there as soon as the jobs are done that were handed over, and no sooner. -/
  report : (∃ r, s.report? = some r) ↔ s.handed.Perm s.finished

/-- What has been handed over is finished, if and only if no worker holds a job. -/
theorem Tenure.finished_iff (e : Tenure s) : s.handed.Perm s.finished ↔ s.each Phase.held? = [] := by
  constructor
  · intro h
    have hl := e.handed_perm.length_eq
    rw [h.length_eq, List.length_append] at hl
    exact List.eq_nil_iff_length_eq_zero.2 (by omega)
  · intro h
    simpa [h] using e.handed_perm

theorem State.Settled.halted (h : s.Settled) (l : Slots s) (g : Gate s) (e : Tenure s)
    (hs : s.shutdown = .stopped) (hc : s.IsSound) : Halted s := by
  have hd := h.dispatcherEnded hs
  have hphases : ∀ p ∈ s.workers, p = .stopped ∨ ∃ job, p = .busy job := by
    intro p hp
    obtain ⟨i, hi⟩ := List.mem_iff_getElem?.1 hp
    rcases h.phase_stopped l hs hi with he | hb
    · have hn := hc p hp
      cases p <;> cases he
      · exact .inl rfl
      · cases hn
    · exact .inr hb
  refine ⟨hphases, ?_, g.turnedAway (g.isClosed_of_ended hd), ?_⟩
  · have hi := g.emptied hd
    unfold State.dispatcherEnded at hd
    split at hd
    · next n hn => simp [State.queued, hn, hi, Dispatcher.hand]
    · cases hd
  · rw [exists_report hs hd, e.finished_iff]
    constructor
    · intro hw
      refine each_eq_nil _ rfl fun i p hp => ?_
      rcases hphases p (List.mem_of_getElem? hp) with rfl | ⟨job, rfl⟩
      · rfl
      · cases List.all_eq_true.1 hw _ (List.mem_of_getElem? hp)
    · intro hn
      refine List.all_eq_true.2 fun p hp => ?_
      rcases hphases p hp with rfl | ⟨job, rfl⟩
      · rfl
      · obtain ⟨i, hi⟩ := List.mem_iff_getElem?.1 hp
        have hm : (i, job) ∈ s.each Phase.held? := mem_each.2 (by rw [hi]; rfl)
        rw [hn] at hm
        cases hm

/-- What is the case once whoever has stopped a pool of a size has its report. -/
structure Returned (size : Nat) (moves : List (Move J)) (s : State J) (r : Report) : Prop where
  /-- Every worker has stopped, and its handler is gone. -/
  phases : s.workers = List.replicate size .stopped
  statuses : r.statuses = List.replicate size .stopped
  /-- Every job that a worker was handed has been run to its end. -/
  started : s.handed.Perm s.started
  finished : s.handed.Perm s.finished
  /-- Every job that was submitted has been accepted or refused, and nobody waits. -/
  waiting : s.intake.waiting = []
  answered : (submissions moves).Perm (s.accepted ++ s.refused)
  /-- Whoever submits a job later is refused, and nothing else happens. -/
  after : ∀ later t, Run s later t → t.report? = some r ∧ t.accepted = s.accepted ∧
    t.refused = s.refused ++ (submissions later).reverse

namespace State.Run

theorem isSound (run : Run (.create size capacity) moves s) (sound : ∀ i, .crash i ∉ moves) : s.IsSound := by
  refine run.keeps (P := fun moves s => (∀ i, .crash i ∉ moves) → s.IsSound) ?_ ?_ sound
  · intro _ p hp
    rw [List.eq_of_mem_replicate hp]
    rfl
  · intro moves t m u ih h sound
    exact h.not_crashed (fun i hm => sound i (hm ▸ List.mem_cons_self ..))
      (ih fun i hi => sound i (List.mem_cons_of_mem _ hi))

theorem returned (run : Run (.create size capacity) moves s) (sound : ∀ i, .crash i ∉ moves)
    (hr : s.report? = some r) : Returned size moves s r := by
  obtain ⟨n, hd, -, hw, rfl⟩ := report?_eq_some.1 hr
  have e := run.tenure
  have g := run.gate
  have hs (i : Nat) (p : Phase J) : s.workers[i]? = some p → p = .stopped :=
    stopped_of_ended hw e (run.crashed_eq_nil sound)
  have hp : s.workers = List.replicate size .stopped := by
    refine List.eq_replicate_iff.2 ⟨run.sized.workers, fun p hp => ?_⟩
    obtain ⟨i, hi⟩ := List.mem_iff_getElem?.1 hp
    exact hs i p hi
  have hf := e.finished_iff.2 (each_eq_nil _ rfl hs)
  have hb : s.started.Perm s.finished := by
    simpa [each_eq_nil Phase.begun? rfl hs] using e.started_perm
  have hwaiting := g.turnedAway (g.isClosed_of_ended (by rw [dispatcherEnded, hd]))
  refine ⟨hp, ?_, hf.trans hb.symm, hf, hwaiting, ?_, fun later t h => h.reported g hr⟩
  · show s.workers.map (·.status) = _
    rw [hp, List.map_replicate]
    rfl
  · simpa [hwaiting] using run.ledger.submitted

end State.Run

/-- A stopped pool stays so, and if it has settled it is halted. -/
theorem State.Run.halted (run : Run (.create size capacity) moves s) (sound : ∀ i, .crash i ∉ moves)
    (hs : s.shutdown = .stopped) {later : List (Move J)} (h : Run s later t)
    (hm : ∀ m ∈ later, m.isSound = true) (settled : t.Settled) : t.shutdown = .stopped ∧ Halted t := by
  have run' : Run (.create size capacity) (later ++ moves) t := Trace.trans run h
  have sound' : ∀ i, .crash i ∉ later ++ moves := fun i hi =>
    (List.mem_append.1 hi).elim (fun hi => nomatch hm _ hi) (sound i)
  have hs' : t.shutdown = .stopped := by
    refine h.keeps (P := fun later t => (∀ m ∈ later, m.isSound = true) → t.shutdown = .stopped)
      (fun _ => hs) ?_ hm
    intro later t m u ih h hm
    exact (h.shutdown_sound (hm m (List.mem_cons_self ..))).trans
      (ih fun k hk => hm k (List.mem_cons_of_mem _ hk))
  exact ⟨hs', settled.halted run'.slots run'.gate run'.tenure hs' (run'.isSound sound')⟩

/-- When whoever stops a pool has its report, in a run in which no handler breaks down.

With the report every worker has stopped and let go of its handler, every job that a worker was handed has
been run to its end, and every other job was refused unless it had been accepted before. Nothing happens
after it but that jobs are refused.

Whatever a stopped pool does on its own, it comes to do nothing more before any job ends; then nothing is
queued, and the report is there unless a job that was handed over is still running. Let its jobs end as well,
and it comes to the report in any case. -/
theorem stop_returns (run : Run (.create size capacity) moves s) (sound : ∀ i, .crash i ∉ moves) :
    (∀ r, s.report? = some r → Returned size moves s r) ∧
    (s.shutdown = .stopped →
      Leads Move.isOwn (fun t => Halted t ∧ t.finished = s.finished) s ∧
      Leads Move.isSound (fun t => ∃ r, t.report? = some r) s) := by
  refine ⟨fun r => run.returned sound, fun hs => ⟨?_, ?_⟩⟩
  · refine leads (fun m hm => isOutside_of_isSound (isSound_of_isOwn hm)) fun later t h hm settled => ?_
    obtain ⟨-, halted⟩ := run.halted sound hs h (fun m hk => isSound_of_isOwn (hm m hk)) settled
    refine ⟨halted, ?_⟩
    refine h.keeps (P := fun later t => (∀ m ∈ later, m.isOwn = true) → t.finished = s.finished)
      (fun _ => rfl) ?_ hm
    intro later t m u ih h hm
    exact (h.finished_own (hm m (List.mem_cons_self ..))).trans
      (ih fun k hk => hm k (List.mem_cons_of_mem _ hk))
  · refine leads (fun m hm => isOutside_of_isSound hm) fun later t h hm stuck => ?_
    have settled : t.Settled := fun m ho => stuck m (isSound_of_isOwn ho)
    obtain ⟨hs', halted⟩ := run.halted sound hs h hm settled
    -- A worker that is busy could come to the end of its job.
    refine (exists_report hs' (settled.dispatcherEnded hs')).2 (List.all_eq_true.2 fun p hp => ?_)
    rcases halted.phases p hp with rfl | ⟨job, rfl⟩
    · rfl
    · obtain ⟨i, hi⟩ := List.mem_iff_getElem?.1 hp
      have := stuck (.finish i) rfl
      simp [State.step, hi] at this

/-- A pool with one worker and one place is stopped while the dispatcher has the worker's slot, and the
worker is still handed its job. Another job is in the intake, and two come too late. Latest first. -/
def lastMinute : List (Move Nat) :=
  [.submit 4, .decide 0, .finish 0, .drain, .drain, .close, .submit 3, .give, .look 0, .withdraw 0, .hand, .stop,
    .submit 2, .take, .receive, .submit 1, .ask 0, .decide 0]

theorem stop_returns_lastMinute : ∃ s, Run (.create 1 1) lastMinute s ∧
    Returned 1 lastMinute s ⟨[.stopped], 1⟩ ∧ s.finished = [(0, 1)] ∧ s.dropped = [2] ∧ s.refused = [3, 4] ∧
    ∃ t, Run (.create 1 1) (lastMinute.drop 6) t ∧ t.handed = [(0, 1)] ∧
      Leads Move.isOwn (fun u => Halted u ∧ u.finished = []) t := by
  obtain ⟨s, hs⟩ : ∃ s, play State.step (State.create 1 1) lastMinute = some s := ⟨_, rfl⟩
  obtain ⟨t, ht⟩ : ∃ t, play State.step (State.create 1 1) (lastMinute.drop 6) = some t := ⟨_, rfl⟩
  have hr : s.report? = some ⟨[.stopped], 1⟩ := by cases hs; rfl
  have hstopped : t.shutdown = .stopped := by cases ht; rfl
  have hf : t.finished = [] := by cases ht; rfl
  have returned := (stop_returns (trace_iff.2 hs) (by simp [lastMinute])).1 _ hr
  have halts := ((stop_returns (trace_iff.2 ht) (by simp [lastMinute])).2 hstopped).1
  rw [hf] at halts
  refine ⟨s, trace_iff.2 hs, returned, ?_, ?_, ?_, t, trace_iff.2 ht, ?_, halts⟩
  · cases hs; rfl
  · cases hs; rfl
  · cases hs; rfl
  · cases ht; rfl

end Herald.Pool
