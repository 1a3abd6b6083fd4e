import Herald.Proofs.Join
import Herald.Proofs.Pipeline.Dispatch
import Herald.Proofs.Pool.Stopping

/-!
# What an event comes to

The notification of an event is built and its recipients are worked out side by side, and both to the end.
Only then it shows what the event comes to: a failure, of which that of the notification comes first, nobody
to tell, or one job for the pool.

* `State.AnyRun`: what may happen to a pipeline when its pool may do whatever a pool does.
* `Status`: how far a message has come; `State.AnyRun.status`.
* `Handling`: the outcomes of an event, and exactly when each of them comes.
* `handling_exact`: that they are these, from the start to the end.
-/

namespace Herald.Pipeline

open Pool (submissions)

variable {settings : Settings} {w : World} {e : Event} {s t : State} {m : Move}
  {acts : List (World × Move)} {moves : List (Pool.Move Order)}
  {size capacity sinkCapacity number due : Nat} {result : Except Outcome Delivery.Job} {outcome : Outcome}

/-! ## Whatever the pool does -/

/-- What becomes of a pipeline by a move when others have a hold on its pool as well: they may let go of it,
its jobs may end at any time, and its handlers may break down. Nobody else submits a job. -/
def State.anyAct (settings : Settings) (s : State) : World × Move → Option State
  | (w, .pool m) =>
    if m.isOwn then s.step settings w (.pool m)
    else match m with
      | .submit _ => none
      | m => (s.pool.step m).map fun pool => { s with pool }
  | (w, m) => s.step settings w m

/-- The pipelines that moves lead to, whatever the pool does; the moves are given latest first. -/
def State.AnyRun (settings : Settings) (s : State) : List (World × Move) → State → Prop :=
  Trace (State.anyAct settings) s

/-- A move goes as in a pipeline by itself, or it is a move of the pool alone. -/
theorem anyAct_cases (h : s.anyAct settings (w, m) = some t) : Step settings w s m t ∨
    ∃ k pool, m = .pool k ∧ (∀ moves, submissions (k :: moves) = submissions moves) ∧
      s.pool.step k = some pool ∧ t = { s with pool } := by
  cases m with
  | pool k =>
    simp only [State.anyAct] at h
    split at h
    · exact .inl (.of_step h)
    · split at h
      · cases h
      · next hk =>
        obtain ⟨pool, hp, rfl⟩ := Option.map_eq_some_iff.1 h
        refine .inr ⟨k, pool, rfl, fun moves => ?_, hp, rfl⟩
        cases k with
        | submit job => exact absurd rfl (hk job)
        | _ => rfl
  | _ => exact .inl (.of_step h)

/-- The pool of a pipeline makes a move, or none. -/
theorem Step.pool_step (h : Step settings w s m t) : t.pool = s.pool ∨ ∃ k, s.pool.step k = some t.pool := by
  cases h with
  | submit =>
    unfold State.submit
    split
    · exact .inl rfl
    · next d _ _ _ job _ => exact .inr ⟨.submit ⟨d.number, job⟩, rfl⟩
  | stop hp | pool _ hp | begin _ hp | finish _ _ hp => exact .inr ⟨_, hp⟩
  | enter | malformed | deliver | pass => exact .inl rfl

section

variable (s : State) (d : Draft)

@[simp] theorem drafts_submit : (s.submit d).drafts = s.drafts := by
  unfold State.submit
  split <;> rfl

@[simp] theorem arrivals_submit : (s.submit d).arrivals = s.arrivals := by
  unfold State.submit
  split <;> rfl

@[simp] theorem now_submit : (s.submit d).now = s.now := by
  unfold State.submit
  split <;> rfl

end

/-- What may happen to a pipeline by itself may happen whatever its pool does. -/
theorem State.Run.any (run : State.Run settings s acts t) : State.AnyRun settings s acts t := by
  refine Trace.keeps (P := fun acts t => State.AnyRun settings s acts t) run .refl ?_
  rintro acts t ⟨w, m⟩ u ih h
  refine .step (w, m) ih ?_
  cases m with
  | pool k =>
    cases ho : k.isOwn with
    | true =>
      simp only [State.anyAct, ho, if_true]
      exact h
    | false => simp [State.act, State.step, ho] at h
  | _ => exact h

namespace State.AnyRun

/-- Jobs and failures have their messages, whatever the pool does. -/
theorem provenance (run : State.AnyRun settings (.create size capacity sinkCapacity) acts s) :
    (∃ moves, Provenance settings size capacity acts moves s) ∧ ∀ f ∈ s.failures, Explained settings acts f := by
  refine Trace.keeps (P := fun acts s => (∃ moves, Provenance settings size capacity acts moves s) ∧
    ∀ f ∈ s.failures, Explained settings acts f) run ⟨⟨[], .create _⟩, nofun⟩ ?_
  rintro acts s ⟨w, m⟩ t ⟨⟨moves, p⟩, hx⟩ h
  rcases anyAct_cases h with h | ⟨k, pool, rfl, hk, hp, rfl⟩
  · exact ⟨p.step h, p.explained hx h⟩
  · exact ⟨⟨k :: moves, p.other rfl (.step _ p.pool hp) (hk moves) rfl rfl rfl⟩, fun f hf => (hx f hf).cons _⟩

/-- What happens to a pipeline happens to its pool. -/
theorem pool (run : State.AnyRun settings s acts t) : ∃ moves, Pool.State.Run s.pool moves t.pool := by
  have base : ∃ moves, Pool.State.Run s.pool moves s.pool := ⟨[], .refl⟩
  refine Trace.keeps (P := fun _ t => ∃ moves, Pool.State.Run s.pool moves t.pool) run base ?_
  rintro acts t ⟨w, m⟩ u ⟨moves, hr⟩ h
  rcases anyAct_cases h with h | ⟨k, pool, rfl, -, hp, rfl⟩
  · rcases h.pool_step with he | ⟨k, hk⟩
    · exact ⟨moves, he ▸ hr⟩
    · exact ⟨_, .step k hr hk⟩
  · exact ⟨_, .step k hr hp⟩

end State.AnyRun

/-! ## Under way -/

/-- The notification of a message is being built, and its recipients are being worked out. -/
def State.IsPending (s : State) (number : Nat) : Prop := ∃ d ∈ s.drafts, d.number = number

/-- A message is ready at this time, and it is not submitted before. -/
structure Underway (number due : Nat) (s : State) : Prop where
  arrived : number < s.arrivals
  ready : ∀ d ∈ s.drafts, d.number = number → d.due = due
  pending : s.now < due → s.IsPending number

namespace Underway

theorem keep (u : Underway number due s) (hd : t.drafts = s.drafts) (hn : s.now ≤ t.now)
    (ha : s.arrivals ≤ t.arrivals) : Underway number due t where
  arrived := Nat.lt_of_lt_of_le u.arrived ha
  ready := hd ▸ u.ready
  pending ht := by
    obtain ⟨d, h, hd'⟩ := u.pending (Nat.lt_of_le_of_lt hn ht)
    exact ⟨d, hd ▸ h, hd'⟩

theorem step (u : Underway number due s) (h : Step settings w s m t) : Underway number due t := by
  cases h with
  | @enter m e he =>
    refine ⟨Nat.lt_succ_of_lt u.arrived, fun d hd hn => ?_, fun ht => ?_⟩
    · rcases List.mem_append.1 hd with hd | hd
      · exact u.ready d hd hn
      · rw [List.mem_singleton.1 hd] at hn
        exact absurd hn (Nat.ne_of_gt u.arrived)
    · obtain ⟨d, hd, hn⟩ := u.pending ht
      exact ⟨d, List.mem_append_left _ hd, hn⟩
  | malformed => exact u.keep rfl (Nat.le_refl _) (Nat.le_succ _)
  | @submit position d hd hdue =>
    have hperm : s.drafts.Perm (d :: s.drafts.eraseIdx position) := perm_eraseIdx hd
    refine ⟨?_, fun d' hd' => ?_, fun ht => ?_⟩
    · rw [arrivals_submit]
      exact u.arrived
    · rw [drafts_submit] at hd'
      exact u.ready d' (hperm.mem_iff.2 (List.mem_cons_of_mem _ hd'))
    · rw [now_submit] at ht
      obtain ⟨d', hd', hn⟩ := u.pending ht
      rcases List.mem_cons.1 (hperm.mem_iff.1 hd') with rfl | hd'
      · exact absurd (u.ready d' (List.mem_of_getElem? hd) hn ▸ hdue) (Nat.not_le.2 ht)
      · refine ⟨d', ?_, hn⟩
        rw [drafts_submit]
        exact hd'
  | stop | pool | begin | finish => exact u.keep rfl (Nat.le_refl _) (Nat.le_refl _)
  | deliver hd => exact u.keep rfl (Nat.le_of_eq (Delivery.State.now_step hd).symm) (Nat.le_refl _)
  | pass => exact u.keep rfl (Nat.le_max_left ..) (Nat.le_refl _)

end Underway

/-! ## Results -/

/-- The notification of an event, as it is built. -/
def notice (settings : Settings) (w : World) (e : Event) : Timed (Except BuildError Notification) :=
  ((Registry.standard w.directories settings.delivery.limit).build e).run

/-- The recipients of an event, as they are worked out. -/
def audience (settings : Settings) (w : World) (e : Event) :
    Timed (Except ResolutionError (List Recipient)) := ((resolver settings w).resolve e).run

/-- A message comes to such an outcome before there is a job. -/
def Outcome.isEarly : Outcome → Bool
  | buildFailed | resolutionFailed | noTargets => true
  | _ => false

section

variable {built : Except BuildError Notification} {targets : Except ResolutionError (List Recipient)}

theorem isEarly_of_jobOf (h : jobOf built targets = .error outcome) : outcome.isEarly = true := by
  unfold jobOf at h
  split at h
  · cases h; rfl
  · cases h; rfl
  · split at h <;> cases h
    rfl

theorem jobOf_eq_buildFailed : jobOf built targets = .error .buildFailed ↔ ∃ cause, built = .error cause := by
  rcases built with cause | notification
  · exact ⟨fun _ => ⟨cause, rfl⟩, fun _ => rfl⟩
  · refine iff_of_false (fun h => ?_) (fun ⟨_, h⟩ => nomatch h)
    rcases targets with cause | _ | ⟨target, rest⟩ <;> cases h

theorem jobOf_eq_resolutionFailed : jobOf built targets = .error .resolutionFailed ↔
    (∃ notification, built = .ok notification) ∧ ∃ cause, targets = .error cause := by
  rcases built with cause | notification
  · exact iff_of_false nofun fun ⟨⟨_, h⟩, _⟩ => nomatch h
  · rcases targets with cause | _ | ⟨target, rest⟩
    · exact ⟨fun _ => ⟨⟨_, rfl⟩, _, rfl⟩, fun _ => rfl⟩
    · exact iff_of_false nofun fun ⟨_, _, h⟩ => nomatch h
    · exact iff_of_false nofun fun ⟨_, _, h⟩ => nomatch h

theorem jobOf_eq_noTargets : jobOf built targets = .error .noTargets ↔
    (∃ notification, built = .ok notification) ∧ targets = .ok [] := by
  rcases built with cause | notification
  · exact iff_of_false nofun fun ⟨⟨_, h⟩, _⟩ => nomatch h
  · rcases targets with cause | _ | ⟨target, rest⟩
    · exact iff_of_false nofun fun ⟨_, h⟩ => nomatch h
    · exact ⟨fun _ => ⟨⟨_, rfl⟩, rfl⟩, fun _ => rfl⟩
    · exact iff_of_false nofun fun ⟨_, h⟩ => nomatch h

theorem jobOf_eq_ok {job : Delivery.Job} : jobOf built targets = .ok job ↔
    built = .ok job.notification ∧ targets = .ok job.targets ∧ job.targets ≠ [] := by
  rcases built with cause | notification
  · exact iff_of_false nofun fun ⟨h, _⟩ => nomatch h
  · rcases targets with cause | _ | ⟨target, rest⟩
    · exact iff_of_false nofun fun ⟨_, h, _⟩ => nomatch h
    · refine iff_of_false nofun fun ⟨_, h, hn⟩ => hn ?_
      exact (Except.ok.inj h).symm
    · constructor
      · rintro h
        cases h
        exact ⟨rfl, rfl, nofun⟩
      · rintro ⟨h, h', -⟩
        cases job
        cases h
        cases h'
        rfl

end

/-! ## How far a message has come -/

/-- No job of a message was accepted. -/
def State.Unaccepted (s : State) (number : Nat) : Prop := ∀ o ∈ s.pool.accepted, o.number ≠ number

/-- How far a message has come of which this is prepared. -/
inductive Status (s : State) (number : Nat) : Except Outcome Delivery.Job → Prop
  | pending {result : Except Outcome Delivery.Job} : s.IsPending number → s.outcome? number = none →
    s.Unaccepted number → Status s number result
  | failed {outcome : Outcome} : ¬s.IsPending number → s.outcome? number = some outcome →
    s.Unaccepted number → Status s number (.error outcome)
  /-- Its job waits for a place in the intake. -/
  | waiting {job : Delivery.Job} : ¬s.IsPending number → s.outcome? number = none →
    s.Unaccepted number → (∃ ticket, (ticket, ⟨number, job⟩) ∈ s.pool.intake.waiting) →
    s.pool.intake.isClosed = false → Status s number (.ok job)
  | refused {job : Delivery.Job} : ¬s.IsPending number → s.outcome? number = some .dispatchFailed →
    s.Unaccepted number → s.pool.intake.isClosed = true → Status s number (.ok job)
  | accepted {job : Delivery.Job} : ¬s.IsPending number →
    s.outcome? number = some (.dispatched job.targets.length) →
    s.pool.accepted.filter (·.number = number) = [⟨number, job⟩] → Status s number (.ok job)

/-- Nothing has become of a message as long as it has not failed and the pool says nothing about it. -/
theorem State.outcome_eq_none (hf : ∀ f ∈ s.failures, f.1 ≠ number) (ha : s.Unaccepted number)
    (hr : ∀ o ∈ s.pool.refused, o.number ≠ number) : s.outcome? number = none := by
  cases ho : s.outcome? number with
  | none => rfl
  | some outcome =>
    rcases State.outcome_cases ho with h | ⟨o, h, hn, -⟩ | ⟨o, h, hn, -⟩
    · exact absurd rfl (hf _ h)
    · exact absurd hn (ha o h)
    · exact absurd hn (hr o h)

namespace Provenance

/-- A message is pending, or it has failed, or its job was submitted, and only one of these. -/
theorem parts (p : Provenance settings size capacity acts moves s) (h : number < s.arrivals) :
    s.IsPending number ∧ (∀ o ∈ submissions moves, o.number ≠ number) ∧
      (∀ f ∈ s.failures, f.1 ≠ number) ∨
    ¬s.IsPending number ∧ (∀ o ∈ submissions moves, o.number ≠ number) ∧
      (∃ outcome, (number, outcome) ∈ s.failures) ∨
    ¬s.IsPending number ∧ (∃ o ∈ submissions moves, o.number = number) ∧
      ∀ f ∈ s.failures, f.1 ≠ number := by
  have hn := List.nodup_append.1 (p.numbers.nodup_iff.2 List.nodup_range)
  obtain ⟨hdf, -, hsub⟩ := hn
  obtain ⟨-, -, hdisjoint⟩ := List.nodup_append.1 hdf
  have hpending : s.IsPending number ↔ number ∈ s.drafts.map (·.number) := List.mem_map.symm
  rw [hpending]
  rcases List.mem_append.1 (p.numbers.mem_iff.2 (List.mem_range.2 h)) with hm | hm
  · rcases List.mem_append.1 hm with hd | hf
    · refine .inl ⟨hd, fun o ho he => ?_, fun f hf he => ?_⟩
      · exact hsub _ hm _ (List.mem_map_of_mem ho) he.symm
      · exact hdisjoint _ hd _ (List.mem_map_of_mem hf) he.symm
    · refine .inr (.inl ⟨fun hd => hdisjoint _ hd _ hf rfl, fun o ho he => ?_, ?_⟩)
      · exact hsub _ hm _ (List.mem_map_of_mem ho) he.symm
      · obtain ⟨⟨_, outcome⟩, hmem, rfl⟩ := List.mem_map.1 hf
        exact ⟨outcome, hmem⟩
  · refine .inr (.inr ⟨fun hd => ?_, List.mem_map.1 hm, fun f hf he => ?_⟩)
    · exact hsub _ (List.mem_append_left _ hd) _ hm rfl
    · exact hsub _ (List.mem_append_right _ (List.mem_map_of_mem hf)) _ hm he

theorem unaccepted (p : Provenance settings size capacity acts moves s)
    (h : ∀ o ∈ submissions moves, o.number ≠ number) : s.Unaccepted number := fun o ho =>
  h o (p.pool.ledger.submitted.mem_iff.2 (List.mem_append_left _ (List.mem_append_left _ ho)))

/-- A message has come as far as one that was prepared like it. -/
theorem status (p : Provenance settings size capacity acts moves s)
    (hx : ∀ f ∈ s.failures, Explained settings acts f) (hm : (messages acts)[number]? = some (w, m))
    (he : m.event? = some e) : Status s number (prepare settings w e).value := by
  have hlt : number < s.arrivals := p.arrivals ▸ (List.getElem?_eq_some_iff.1 hm).1
  have ledger := p.pool.ledger.submitted
  rcases p.parts hlt with ⟨hp, hs, hf⟩ | ⟨hp, hs, outcome, hf⟩ | ⟨hp, ⟨o, hs, rfl⟩, hf⟩
  · refine .pending hp (State.outcome_eq_none hf (p.unaccepted hs) fun o ho => ?_) (p.unaccepted hs)
    exact hs o (ledger.mem_iff.2 (List.mem_append_left _ (List.mem_append_right _ ho)))
  · -- Whatever became of the message is a failure, and failures are explained by preparations.
    have hvalue {outcome : Outcome} (hf : (number, outcome) ∈ s.failures) :
        (prepare settings w e).value = .error outcome := by
      rcases hx _ hf with h | ⟨-, w', m', hm', he'⟩
      · exact (h.eq hm he).symm
      · cases hm.symm.trans hm'
        rw [he] at he'
        cases he'
    have hout : s.outcome? number = some outcome := by
      unfold State.outcome?
      cases hl : s.failures.lookup number with
      | none => exact absurd rfl (bne_iff_ne.1 (List.lookup_eq_none_iff.1 hl _ hf))
      | some found =>
        obtain ⟨l₁, l₂, hs, -⟩ := List.lookup_eq_some_iff.1 hl
        have hfound : (number, found) ∈ s.failures := hs ▸ List.mem_append_right _ (List.mem_cons_self ..)
        exact congrArg some (Except.error.inj ((hvalue hfound).symm.trans (hvalue hf)))
    rw [hvalue hf]
    exact .failed hp hout (p.unaccepted hs)
  · rw [← (p.orders o hs).eq hm he]
    have hn := (ledger.map (·.number)).nodup_iff.1 p.nodup_submissions
    rw [List.map_append, List.map_append] at hn
    obtain ⟨hboth, -, hwaiting⟩ := List.nodup_append.1 hn
    obtain ⟨haccepted, -, hrefused⟩ := List.nodup_append.1 hboth
    rcases List.mem_append.1 (ledger.mem_iff.1 hs) with ho | ho
    · rcases List.mem_append.1 ho with ho | ho
      · exact .accepted hp (p.outcome_of_accepted ho) (filter_key haccepted ho)
      · refine .refused hp (p.outcome_of_refused ho) (fun a ha hn => ?_) ?_
        · exact hrefused _ (List.mem_map_of_mem ha) _ (List.mem_map_of_mem ho) hn
        · by_contra hc
          rw [p.pool.unrefused (Bool.eq_false_iff.2 hc)] at ho
          cases ho
    · have hnot {a : Order} (ha : a ∈ s.pool.accepted ++ s.pool.refused) : a.number ≠ o.number := by
        have hmem := List.mem_map_of_mem (f := Order.number) ha
        rw [List.map_append] at hmem
        exact hwaiting _ hmem _ (List.mem_map_of_mem ho)
      obtain ⟨⟨ticket, _⟩, hw, rfl⟩ := List.mem_map.1 ho
      have ha : s.Unaccepted _ := fun a ha => hnot (List.mem_append_left _ ha)
      refine .waiting hp (State.outcome_eq_none hf ha fun a ha => hnot (List.mem_append_right _ ha)) ha
        ⟨ticket, hw⟩ (Bool.eq_false_iff.2 fun hc => ?_)
      rw [p.pool.gate.turnedAway hc] at hw
      cases hw

end Provenance

namespace Status

variable (h : Status s number result)
include h

theorem early_iff (ho : outcome.isEarly = true) :
    s.outcome? number = some outcome ↔ ¬s.IsPending number ∧ result = .error outcome := by
  cases h with
  | pending hp hn => exact iff_of_false (by rw [hn]; nofun) fun h => h.1 hp
  | failed hp hn => rw [hn]; exact ⟨fun h => ⟨hp, by cases h; rfl⟩, fun ⟨_, h⟩ => by cases h; rfl⟩
  | waiting hp hn => exact iff_of_false (by rw [hn]; nofun) nofun
  | refused hp hn => exact iff_of_false (by rw [hn]; rintro ⟨⟩; cases ho) nofun
  | accepted hp hn => exact iff_of_false (by rw [hn]; rintro ⟨⟩; cases ho) nofun

theorem of_pending (hp : s.IsPending number) : s.outcome? number = none ∧ s.Unaccepted number := by
  cases h with
  | pending _ hn ha => exact ⟨hn, ha⟩
  | failed hp' | waiting hp' | refused hp' | accepted hp' => exact absurd hp hp'

theorem of_undecided (hn : s.outcome? number = none) : s.IsPending number ∨
    s.pool.intake.isClosed = false ∧ ∃ ticket job, (ticket, ⟨number, job⟩) ∈ s.pool.intake.waiting := by
  cases h with
  | pending hp => exact .inl hp
  | waiting _ _ _ hw hc => exact .inr ⟨hc, hw.imp fun ticket h => ⟨_, h⟩⟩
  | failed _ ho | refused _ ho | accepted _ ho =>
    rw [ho] at hn
    cases hn

theorem of_accepted {o : Order} (ho : o ∈ s.pool.accepted) (hn : o.number = number) :
    s.outcome? number = some (.dispatched o.job.targets.length) := by
  cases h with
  | pending _ _ ha | failed _ _ ha | waiting _ _ ha | refused _ _ ha => exact absurd hn (ha o ho)
  | accepted _ hout hf =>
    have hmem : o ∈ s.pool.accepted.filter (·.number = number) := List.mem_filter.2 ⟨ho, decide_eq_true hn⟩
    rw [hf, List.mem_singleton] at hmem
    rw [hout, hmem]

variable (hr : ∀ outcome, result = .error outcome → outcome.isEarly = true)
include hr

theorem dispatched_iff {n : Nat} : s.outcome? number = some (.dispatched n) ↔ ∃ job, result = .ok job ∧
    job.targets.length = n ∧ s.pool.accepted.filter (·.number = number) = [⟨number, job⟩] := by
  have hnone {job : Delivery.Job} (ha : s.Unaccepted number) :
      s.pool.accepted.filter (·.number = number) ≠ [⟨number, job⟩] := fun hf => by
    have hmem : ⟨number, job⟩ ∈ s.pool.accepted.filter (·.number = number) := hf ▸ List.mem_singleton_self _
    exact ha _ (List.mem_filter.1 hmem).1 rfl
  cases h with
  | pending _ hn ha | waiting _ hn ha | refused _ hn ha =>
    exact iff_of_false (by rw [hn]; nofun) fun ⟨_, _, _, hf⟩ => hnone ha hf
  | failed _ hn ha =>
    refine iff_of_false (fun ho => ?_) fun ⟨_, _, _, hf⟩ => hnone ha hf
    cases hn.symm.trans ho
    cases hr _ rfl
  | @accepted job _ hn hf =>
    rw [hn, hf]
    constructor
    · rintro ⟨⟩
      exact ⟨job, rfl, rfl, rfl⟩
    · rintro ⟨_, ⟨⟩, rfl, -⟩
      rfl

theorem dispatchFailed_iff : s.outcome? number = some .dispatchFailed ↔ ¬s.IsPending number ∧
    (∃ job, result = .ok job) ∧ s.pool.intake.isClosed = true ∧ s.Unaccepted number := by
  cases h with
  | pending hp hn => exact iff_of_false (by rw [hn]; nofun) fun h => h.1 hp
  | failed _ hn =>
    refine iff_of_false (fun ho => ?_) fun ⟨_, ⟨_, h⟩, _⟩ => nomatch h
    cases hn.symm.trans ho
    cases hr _ rfl
  | waiting _ hn _ _ hc =>
    refine iff_of_false (by rw [hn]; nofun) fun h => ?_
    rw [hc] at h
    exact nomatch h.2.2.1
  | @refused job hp hn ha hc => exact ⟨fun _ => ⟨hp, ⟨job, rfl⟩, hc, ha⟩, fun _ => hn⟩
  | @accepted job _ hn hf =>
    refine iff_of_false (by rw [hn]; nofun) fun h => ?_
    have hmem : ⟨number, job⟩ ∈ s.pool.accepted.filter (·.number = number) := hf ▸ List.mem_singleton_self _
    exact h.2.2.2 _ (List.mem_filter.1 hmem).1 rfl

end Status

/-! ## Side by side -/

/-- Both parts of the preparation of an event, each with what it comes to. -/
def sides (settings : Settings) (w : World) (e : Event) :
    List (Timed (Except BuildError Notification ⊕ Except ResolutionError (List Recipient))) :=
  [Sum.inl <$> notice settings w e, Sum.inr <$> audience settings w e]

/-- When both parts of the preparation of an event are over. -/
def readiness (settings : Settings) (w : World) (e : Event) : Nat :=
  max (notice settings w e).elapsed (audience settings w e).elapsed

/-- Both parts of the preparation of an event run to their end, whatever the other one comes to. -/
structure SideBySide (settings : Settings) (w : World) (e : Event) : Prop where
  calls : (prepare settings w e).calls = (notice settings w e).calls ++ (audience settings w e).calls
  elapsed : (prepare settings w e).elapsed = readiness settings w e
  /-- In whatever order they are over, both have come to what they come to alone, and no sooner. -/
  results : ∀ acts j rs, Join.Run (sides settings w e) acts j → j.results? = some rs →
    rs = [.inl (notice settings w e).value, .inr (audience settings w e).value] ∧
      readiness settings w e ≤ j.now
  /-- However far they have come, they can be over as soon as the longer one is. -/
  completes : ∀ acts j, Join.Run (sides settings w e) acts j →
    ∃ later k, Join.Run (sides settings w e) (later ++ acts) k ∧
      k.results? = some [.inl (notice settings w e).value, .inr (audience settings w e).value] ∧
      k.now = max j.now (readiness settings w e)

theorem elapsed_sides : (Timed.all (sides settings w e)).elapsed = readiness settings w e :=
  congrArg (max _) (Nat.max_zero _)

theorem both_run (settings : Settings) (w : World) (e : Event) : SideBySide settings w e where
  calls := List.append_nil _
  elapsed := rfl
  results _ _ _ run hr := elapsed_sides ▸ run.results hr
  completes _ _ run := elapsed_sides ▸ run.completes

/-! ## Handling -/

/-- What comes of an event, as far as it has come: its message has that number, and its preparation is over
at the time `due`. -/
structure Handling (settings : Settings) (w : World) (e : Event) (number due : Nat) (s : State) : Prop where
  /-- Before both parts are over nothing comes of it. -/
  early : s.now < due → s.IsPending number
  pending : s.IsPending number → s.outcome? number = none ∧ s.Unaccepted number
  /-- It goes on when the longer part is over, and can do so at once. -/
  ready : ∀ position d, s.drafts[position]? = some d → d.number = number →
    ∀ v, (∃ t, s.step settings v (.submit position) = some t) ↔ due ≤ s.now
  buildFailed : s.outcome? number = some .buildFailed ↔
    ¬s.IsPending number ∧ ∃ cause, (notice settings w e).value = .error cause
  resolutionFailed : s.outcome? number = some .resolutionFailed ↔ ¬s.IsPending number ∧
    (∃ notification, (notice settings w e).value = .ok notification) ∧
    ∃ cause, (audience settings w e).value = .error cause
  noTargets : s.outcome? number = some .noTargets ↔ ¬s.IsPending number ∧
    (∃ notification, (notice settings w e).value = .ok notification) ∧
    (audience settings w e).value = .ok []
  /-- It is dispatched if the pool has accepted the one job that holds all of it. -/
  dispatched : ∀ n, s.outcome? number = some (.dispatched n) ↔ ∃ job : Delivery.Job,
    ((notice settings w e).value = .ok job.notification ∧ (audience settings w e).value = .ok job.targets ∧
      job.targets ≠ []) ∧
    job.targets.length = n ∧ s.pool.accepted.filter (·.number = number) = [⟨number, job⟩]
  accepted : ∀ o ∈ s.pool.accepted, o.number = number →
    s.outcome? number = some (.dispatched o.job.targets.length)
  /-- It is turned away if the intake was closed before the pool had accepted its job. -/
  dispatchFailed : s.outcome? number = some .dispatchFailed ↔ ¬s.IsPending number ∧
    (∃ job : Delivery.Job, (notice settings w e).value = .ok job.notification ∧
      (audience settings w e).value = .ok job.targets ∧ job.targets ≠ []) ∧
    s.pool.intake.isClosed = true ∧ s.Unaccepted number
  /-- Once it has gone on, it waits for nothing but a place in an open intake. -/
  undecided : s.outcome? number = none → s.IsPending number ∨
    s.pool.intake.isClosed = false ∧ (∃ ticket job, (ticket, ⟨number, job⟩) ∈ s.pool.intake.waiting) ∧
      (s.pool.Settled → s.pool.intake.items.length = s.pool.intake.capacity)
  /-- The intake is closed by the end of the pool only. -/
  closed : s.pool.intake.isClosed = true →
    s.pool.shutdown ≠ .none ∨ ∀ p ∈ s.pool.workers, p.isCrashed = true
  reported : ∀ r, s.pool.report? = some r → s.pool.intake.isClosed = true

theorem handling (p : Provenance settings size capacity acts moves s)
    (h : Status s number (prepare settings w e).value) (u : Underway number due s) :
    Handling settings w e number due s := by
  have hr : ∀ outcome, (prepare settings w e).value = .error outcome → outcome.isEarly = true :=
    fun outcome => isEarly_of_jobOf
  have hvalue : (prepare settings w e).value =
      jobOf (notice settings w e).value (audience settings w e).value := rfl
  refine
    { early := u.pending
      pending := h.of_pending
      ready := fun position d hd hn v => ?_
      buildFailed := ?_
      resolutionFailed := ?_
      noTargets := ?_
      dispatched := fun n => ?_
      accepted := fun o => h.of_accepted
      dispatchFailed := ?_
      undecided := fun hn => ?_
      closed := fun hc => ?_
      reported := fun r hr => ?_ }
  · have hdue := u.ready d (List.mem_of_getElem? hd) hn
    simp only [State.step, hd, hdue]
    split
    · next h => exact iff_of_true ⟨_, rfl⟩ h
    · next h =>
      refine iff_of_false (not_exists.2 fun t ht => ?_) h
      cases ht
  · rw [h.early_iff rfl, hvalue, jobOf_eq_buildFailed]
  · rw [h.early_iff rfl, hvalue, jobOf_eq_resolutionFailed]
  · rw [h.early_iff rfl, hvalue, jobOf_eq_noTargets]
  · simp only [h.dispatched_iff hr, hvalue, jobOf_eq_ok]
  · simp only [h.dispatchFailed_iff hr, hvalue, jobOf_eq_ok]
  · rcases h.of_undecided hn with hp | ⟨hc, ticket, job, hw⟩
    · exact .inl hp
    · exact .inr ⟨hc, ⟨ticket, job, hw⟩, fun hs => hs.full (List.ne_nil_of_mem hw)⟩
  · by_cases hn : s.pool.shutdown = .none
    · refine .inr (p.pool.alive.wrecked hn ?_)
      rw [p.pool.gate.closed] at hc
      cases hd : s.pool.dispatcher <;> rw [hd] at hc <;> first | rfl | cases hc
    · exact .inl hn
  · obtain ⟨n, hd, -⟩ := Pool.report?_eq_some.1 hr
    exact p.pool.gate.isClosed_of_ended (by rw [Pool.State.dispatcherEnded, hd])

/-- A message is under way from the moment at which it comes in. -/
theorem Provenance.underway (p : Provenance settings size capacity acts moves s) :
    Underway s.arrivals (s.now + readiness settings w e) (s.enter settings w e) where
  arrived := Nat.lt_succ_self _
  ready d hd hn := by
    rcases List.mem_append.1 hd with hd | hd
    · have hlt := p.numbers.subset (List.mem_append_left _ (List.mem_append_left _ (List.mem_map_of_mem hd)))
      exact absurd hn (Nat.ne_of_lt (List.mem_range.1 hlt))
    · rw [List.mem_singleton.1 hd]
      rfl
  pending _ := ⟨_, List.mem_append_right _ (List.mem_singleton_self _), rfl⟩

theorem State.AnyRun.underway (run : State.AnyRun settings s acts t) (u : Underway number due s) :
    Underway number due t := by
  refine Trace.keeps (P := fun _ t => Underway number due t) run u ?_
  rintro acts t ⟨w, m⟩ t' u h
  rcases anyAct_cases h with h | ⟨k, pool, rfl, -, -, rfl⟩
  · exact u.step h
  · exact u.keep rfl (Nat.le_refl _) (Nat.le_refl _)

/-- What comes of an event that a pipeline takes in, whatever state its pool is in and whatever becomes of it.

Its notification is built and its recipients are worked out side by side: all calls of both are made, and
the longer part counts. `Handling` says what the outcome is, at every later moment: that the event is pending
until then, that a failure to build comes before a failure to find recipients, and that otherwise the pool
accepts one job with all recipients, or its intake was closed before. Once the intake is closed, a job that
has not been accepted never is. Let go on, a pipeline whose handlers do not break down comes to an outcome. -/
theorem handling_exact {before : List (World × Move)}
    (run : State.AnyRun settings (.create size capacity sinkCapacity) before s) (w : World) (e : Event) :
    SideBySide settings w e ∧
    (s.enter settings w e).delivery.log = (((notice settings w e).calls ++
      (audience settings w e).calls).map .called).reverse ++ s.delivery.log ∧
    ∀ after t, State.AnyRun settings (s.enter settings w e) after t →
      Handling settings w e s.arrivals (s.now + readiness settings w e) t ∧
      (t.pool.intake.isClosed = true → t.Unaccepted s.arrivals → ∀ later u, State.AnyRun settings t later u →
        u.pool.intake.isClosed = true ∧ u.Unaccepted s.arrivals) ∧
      (State.Run settings (.create size capacity sinkCapacity) (after ++ (w, .enter e) :: before) t →
        ∀ v, ∃ outcome, (t.finish settings v).outcome? s.arrivals = some outcome) := by
  obtain ⟨⟨moves, p⟩, -⟩ := run.provenance
  refine ⟨both_run settings w e, ?_, fun after t hafter => ?_⟩
  · rw [← (both_run settings w e).calls]
    rfl
  have hrun : State.AnyRun settings (.create size capacity sinkCapacity) (after ++ (w, .enter e) :: before) t :=
    Trace.trans (.step (w, .enter e) run rfl) hafter
  obtain ⟨⟨moves', p'⟩, hx⟩ := hrun.provenance
  have hm : (messages (after ++ (w, .enter e) :: before))[s.arrivals]? = some (w, .enter e) := by
    have hsplit : messages (after ++ (w, .enter e) :: before) =
        messages before ++ (w, .enter e) :: messages after := by
      rw [messages, pick_append, ← messages, ← messages, messages_cons]
      simp [Move.isMessage]
    rw [hsplit, ← p.arrivals]
    simp
  refine ⟨handling p' (p'.status hx hm rfl) (hafter.underway p.underway), fun hc ha later u hl => ?_, ?_⟩
  · obtain ⟨_, hpool⟩ := hl.pool
    obtain ⟨hc', ha'⟩ := hpool.closed p'.pool.gate hc
    exact ⟨hc', fun o ho => ha o (ha' ▸ ho)⟩
  · intro plain v
    obtain ⟨inner, hi, hfinish, rest⟩ := plain.finish v
    have u := State.AnyRun.underway (Trace.trans hafter hfinish.any) p.underway
    exact State.Run.settles (Trace.trans plain hfinish) rest u.arrived

/-- Nobody knows names or preferences, and it takes longer to find out about preferences. -/
def brokenWorld : World :=
  { plainWorld with
    directories := ⟨fun _ _ => ⟨5, .error (.reported "down")⟩, fun _ => .now none⟩
    audience := ⟨fun _ _ => ⟨7, .error (.failed (.reported "lost"))⟩, fun _ => .now [], fun _ => .now []⟩ }

/-- User 2 is told about a follower if the pool takes the job, but not once the pool has been stopped. If
neither the notification nor the recipient can be found out, the event fails for the former when the latter
is known. -/
theorem handling_exact_threeWays : ∃ s t u,
    Handling plainSettings plainWorld (.newFollower 1 2) 0 0 s ∧ s.outcome? 0 = some (.dispatched 1) ∧
    Handling plainSettings plainWorld (.newFollower 1 2) 0 0 t ∧ t.outcome? 0 = some .dispatchFailed ∧
    Handling plainSettings brokenWorld (.newFollower 1 2) 0 7 u ∧ u.outcome? 0 = some .buildFailed := by
  have hnew : State.AnyRun plainSettings (.create 1 1 1) [] (.create 1 1 1) := .refl
  have hexact (w : World) {after : List (World × Move)} {t : State}
      (h : play (State.anyAct plainSettings)
        ((State.create 1 1 1).enter plainSettings w (.newFollower 1 2)) after = some t) :
      Handling plainSettings w (.newFollower 1 2) 0 (0 + readiness plainSettings w (.newFollower 1 2)) t :=
    ((handling_exact hnew w (.newFollower 1 2)).2.2 after t (trace_iff.2 h)).1
  obtain ⟨s, hs⟩ : ∃ s, play (State.anyAct plainSettings)
      ((State.create 1 1 1).enter plainSettings plainWorld (.newFollower 1 2))
      [(plainWorld, .submit 0)] = some s := ⟨_, rfl⟩
  obtain ⟨t, ht⟩ : ∃ t, play (State.anyAct plainSettings)
      ((State.create 1 1 1).enter plainSettings plainWorld (.newFollower 1 2))
      ([.submit 0, .pool .close, .pool .give, .stop].map (plainWorld, ·)) = some t := ⟨_, rfl⟩
  obtain ⟨u, hu⟩ : ∃ u, play (State.anyAct plainSettings)
      ((State.create 1 1 1).enter plainSettings brokenWorld (.newFollower 1 2))
      ([.submit 0, .pass 7].map (brokenWorld, ·)) = some u := ⟨_, rfl⟩
  refine ⟨s, t, u, hexact _ hs, ?_, hexact _ ht, ?_, hexact _ hu, ?_⟩
  · cases hs; rfl
  · cases ht; rfl
  · cases hu; rfl

end Herald.Pipeline
