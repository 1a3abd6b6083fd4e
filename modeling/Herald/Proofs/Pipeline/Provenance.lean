import Herald.Proofs.Delivery.Ledger
import Herald.Proofs.Pipeline.Step
import Herald.Proofs.Pool.Accounting

/-!
# Where jobs come from

Each message that has arrived is being prepared, has come to nothing, or was submitted to the pool,
and it is only one of these. The job that was submitted is the one that was prepared from the
message's own event with the replies of its own time.

* `Provenance`: how drafts, failures and jobs agree with the messages; `Provenance.step` keeps it.
* `Provenance.failed_or_submitted`, `Provenance.drafted_or_submitted`: what an outcome tells of a
  message, and what it tells that there is none yet.
-/

namespace Herald.Pipeline

open Pool (submissions)

variable {settings : Settings} {w : World} {s t : State} {m : Move} {acts : List (World × Move)}
  {moves : List (Pool.Move Order)} {size capacity : Nat}

/-! ## Messages -/

def Move.isMessage : Move → Bool
  | .arrive _ | .enter _ => true
  | _ => false

/-- The messages of a run, in the order in which they came, with the worlds they came into. -/
def messages (acts : List (World × Move)) : List (World × Move) :=
  pick (fun a => if a.2.isMessage then some a else none) acts

theorem messages_cons (a : World × Move) (acts : List (World × Move)) :
    messages (a :: acts) = messages acts ++ if a.2.isMessage then [a] else [] := by
  unfold messages
  rw [pick_cons]
  split <;> rfl

theorem isMessage_of_event {e : Event} (h : m.event? = some e) : m.isMessage = true := by
  cases m with
  | arrive | enter => rfl
  | _ => cases h

/-- The message of that number holds an event, and this is what it was prepared to. -/
def Origin (settings : Settings) (acts : List (World × Move)) (number : Nat)
    (result : Except Outcome Delivery.Job) : Prop :=
  ∃ w m e, (messages acts)[number]? = some (w, m) ∧ m.event? = some e ∧
    (prepare settings w e).value = result

theorem Origin.cons {number : Nat} {result : Except Outcome Delivery.Job}
    (o : Origin settings acts number result) (a : World × Move) :
    Origin settings (a :: acts) number result := by
  obtain ⟨w, m, e, hm, he, hr⟩ := o
  refine ⟨w, m, e, ?_, he, hr⟩
  rw [messages_cons, List.getElem?_append_left (List.getElem?_eq_some_iff.1 hm).1, hm]

/-! ## Outcomes -/

/-- An outcome is that of a message that was not submitted, or a job tells it. -/
theorem State.outcome_cases {number : Nat} {outcome : Outcome}
    (h : s.outcome? number = some outcome) :
    (number, outcome) ∈ s.failures ∨
    (∃ o ∈ s.pool.accepted, o.number = number ∧ outcome = .dispatched o.job.targets.length) ∨
    ∃ o ∈ s.pool.refused, o.number = number ∧ outcome = .dispatchFailed := by
  unfold State.outcome? at h
  cases hl : s.failures.lookup number with
  | some found =>
    rw [hl] at h
    cases h
    obtain ⟨l₁, l₂, hf, -⟩ := List.lookup_eq_some_iff.1 hl
    exact .inl (hf ▸ List.mem_append_right _ (List.mem_cons_self ..))
  | none =>
    rw [hl] at h
    obtain ⟨x, hx, h⟩ := List.exists_of_findSome?_eq_some h
    cases x with
    | accepted o =>
      have hm : o ∈ s.pool.accepted := mem_pick.2 ⟨_, hx, rfl⟩
      simp only [Option.ite_none_right_eq_some, Option.some.injEq] at h
      exact .inr (.inl ⟨o, hm, h.1, h.2.symm⟩)
    | refused o =>
      have hm : o ∈ s.pool.refused := mem_pick.2 ⟨_, hx, rfl⟩
      simp only [Option.ite_none_right_eq_some, Option.some.injEq] at h
      exact .inr (.inr ⟨o, hm, h.1, h.2.symm⟩)
    | _ => cases h

/-! ## Numbers -/

/-- How drafts, failures and the moves of the pool agree with the messages. -/
structure Provenance (settings : Settings) (size capacity : Nat) (acts : List (World × Move))
    (moves : List (Pool.Move Order)) (s : State) : Prop where
  arrivals : (messages acts).length = s.arrivals
  pool : Pool.State.Run (.create size capacity) moves s.pool
  numbers : (s.drafts.map (·.number) ++ s.failures.map (·.1) ++
    (submissions moves).map (·.number)).Perm (List.range s.arrivals)
  drafts : ∀ d ∈ s.drafts, Origin settings acts d.number d.result
  orders : ∀ o ∈ submissions moves, Origin settings acts o.number (.ok o.job)

namespace Provenance

theorem create (sinkCapacity : Nat) :
    Provenance settings size capacity [] [] (State.create size capacity sinkCapacity) :=
  ⟨rfl, .refl, .refl _, fun _ h => absurd h List.not_mem_nil, fun _ h => absurd h List.not_mem_nil⟩

/-- Nothing comes in, and nothing is submitted. -/
theorem other {a : World × Move} {m : Pool.Move Order}
    (p : Provenance settings size capacity acts moves s) (ha : a.2.isMessage = false)
    (hp : Pool.State.Run (.create size capacity) (m :: moves) t.pool)
    (hs : submissions (m :: moves) = submissions moves) (hd : t.drafts = s.drafts)
    (hf : t.failures = s.failures) (hn : t.arrivals = s.arrivals) :
    Provenance settings size capacity (a :: acts) (m :: moves) t := by
  refine ⟨?_, hp, ?_, fun d h => (p.drafts d (hd ▸ h)).cons a,
    fun o h => (p.orders o (hs ▸ h)).cons a⟩
  · rw [messages_cons, ha, hn, ← p.arrivals]; simp
  · rw [hs, hd, hf, hn]; exact p.numbers

/-- What is not of the pool, and neither comes in nor goes out, changes nothing. -/
theorem idle {a : World × Move} (p : Provenance settings size capacity acts moves s)
    (ha : a.2.isMessage = false) (hp : t.pool = s.pool) (hd : t.drafts = s.drafts)
    (hf : t.failures = s.failures) (hn : t.arrivals = s.arrivals) :
    Provenance settings size capacity (a :: acts) moves t := by
  refine ⟨?_, hp ▸ p.pool, ?_, fun d h => (p.drafts d (hd ▸ h)).cons a,
    fun o h => (p.orders o h).cons a⟩
  · rw [messages_cons, ha, hn, ← p.arrivals]; simp
  · rw [hd, hf, hn]; exact p.numbers

theorem enter {e : Event} (p : Provenance settings size capacity acts moves s)
    (he : m.event? = some e) :
    Provenance settings size capacity ((w, m) :: acts) moves (s.enter settings w e) := by
  have hm : messages ((w, m) :: acts) = messages acts ++ [(w, m)] := by
    rw [messages_cons]; simp [isMessage_of_event he]
  refine ⟨?_, p.pool, ?_, ?_, fun o h => (p.orders o h).cons _⟩
  · rw [hm]; simp [State.enter, p.arrivals]
  · show (List.map Draft.number (s.drafts ++ [_]) ++ _ ++ _).Perm (List.range (s.arrivals + 1))
    rw [List.range_succ]
    refine List.Perm.trans ?_ (p.numbers.append_right _)
    simp only [List.map_append, List.map_cons, List.map_nil, List.append_assoc]
    exact (List.perm_append_comm.trans (by simp [State.enter])).append_left _
  · intro d h
    rcases List.mem_append.1 h with h | h
    · exact (p.drafts d h).cons _
    · rw [List.mem_singleton.1 h]
      refine ⟨w, m, e, ?_, he, rfl⟩
      rw [hm, ← p.arrivals]
      simp

theorem malformed {payload : List UInt8} (p : Provenance settings size capacity acts moves s) :
    Provenance settings size capacity ((w, .arrive payload) :: acts) moves
      { s with arrivals := s.arrivals + 1, failures := (s.arrivals, .malformed) :: s.failures } := by
  refine ⟨?_, p.pool, ?_, fun d h => (p.drafts d h).cons _, fun o h => (p.orders o h).cons _⟩
  · rw [messages_cons, List.length_append, p.arrivals]; rfl
  · show (_ ++ s.arrivals :: s.failures.map (·.1) ++ _).Perm (List.range (s.arrivals + 1))
    rw [List.range_succ]
    have hp := (p.numbers.cons s.arrivals).trans (List.perm_append_singleton _ _).symm
    refine List.Perm.trans ?_ hp
    rw [List.append_assoc, List.append_assoc]
    exact List.perm_middle

theorem submit {position : Nat} {d : Draft} (p : Provenance settings size capacity acts moves s)
    (hd : s.drafts[position]? = some d) : ∃ moves,
    Provenance settings size capacity ((w, .submit position) :: acts) moves
      ({ s with drafts := s.drafts.eraseIdx position }.submit d) := by
  have ho := p.drafts d (List.mem_of_getElem? hd)
  have hm : messages ((w, .submit position) :: acts) = messages acts := by
    rw [messages_cons]; simp [Move.isMessage]
  have hperm : s.drafts.Perm (d :: s.drafts.eraseIdx position) := perm_eraseIdx hd
  have hnum := (((hperm.map (·.number)).append_right (s.failures.map (·.1))).append_right
    ((submissions moves).map (·.number))).symm.trans p.numbers
  have hdrafts : ∀ d ∈ s.drafts.eraseIdx position,
      Origin settings ((w, .submit position) :: acts) d.number d.result := fun d h =>
    (p.drafts d (hperm.mem_iff.2 (List.mem_cons_of_mem _ h))).cons _
  unfold State.submit
  cases hr : d.result with
  | error outcome =>
    refine ⟨moves, hm ▸ p.arrivals, p.pool, List.Perm.trans ?_ hnum, hdrafts,
      fun o h => (p.orders o h).cons _⟩
    simp only [List.map_cons, List.append_assoc, List.cons_append]
    exact List.perm_middle
  | ok job =>
    refine ⟨.submit ⟨d.number, job⟩ :: moves, hm ▸ p.arrivals, .step _ p.pool rfl,
      List.Perm.trans ?_ hnum, hdrafts, ?_⟩
    · show (_ ++ d.number :: (submissions moves).map (·.number)).Perm _
      simp only [List.map_cons, List.cons_append]
      exact List.perm_middle
    · intro o h
      rcases List.mem_cons.1 (show o ∈ _ :: submissions moves from h) with rfl | h
      · exact hr ▸ ho.cons _
      · exact (p.orders o h).cons _

theorem submissions_own {m : Pool.Move Order} (ho : m.isOwn = true) (moves : List (Pool.Move Order)) :
    submissions (m :: moves) = submissions moves := by
  cases m with
  | submit job => cases ho
  | _ => rfl

/-- Every move of a pipeline keeps the numbers of its messages in line. -/
theorem step (p : Provenance settings size capacity acts moves s) (h : Step settings w s m t) :
    ∃ moves, Provenance settings size capacity ((w, m) :: acts) moves t := by
  cases h with
  | enter he => exact ⟨moves, p.enter he⟩
  | malformed => exact ⟨moves, p.malformed⟩
  | submit hd => exact p.submit hd
  | stop hp => exact ⟨_, p.other rfl (.step _ p.pool hp) rfl rfl rfl rfl⟩
  | pool ho hp | begin ho hp =>
    exact ⟨_, p.other rfl (.step _ p.pool hp) (submissions_own ho moves) rfl rfl rfl⟩
  | finish hk hb hp => exact ⟨_, p.other rfl (.step _ p.pool hp) rfl rfl rfl rfl⟩
  | deliver | pass => exact ⟨moves, p.idle rfl rfl rfl rfl rfl⟩

/-! ## Orders -/

/-- Different jobs of the pool come from different messages. -/
theorem nodup_submissions (p : Provenance settings size capacity acts moves s) :
    ((submissions moves).map (·.number)).Nodup :=
  (List.nodup_append.1 (p.numbers.nodup_iff.2 List.nodup_range)).2.1

theorem nodup_accepted (p : Provenance settings size capacity acts moves s) :
    (s.pool.accepted.map (·.number) ++ s.pool.refused.map (·.number)).Nodup := by
  have hn := (p.pool.ledger.submitted.map (·.number)).nodup_iff.1 p.nodup_submissions
  rw [List.map_append, List.map_append] at hn
  exact (List.nodup_append.1 hn).1

theorem nodup_started (p : Provenance settings size capacity acts moves s) :
    (s.pool.started.map (·.2.number)).Nodup := by
  have hn := (List.nodup_append.1 p.nodup_accepted).1
  rw [p.pool.ledger.order, List.map_append, List.map_append, List.map_map] at hn
  have hh := (List.nodup_append.1 (List.nodup_append.1 hn).1).1
  obtain ⟨l, hp, hs⟩ := p.pool.tenure.started_subperm
  exact (hp.map _).nodup_iff.1 ((hs.map _).nodup hh)

theorem accepted_of_started (p : Provenance settings size capacity acts moves s) {i : Nat}
    {o : Order} (h : (i, o) ∈ s.pool.started) : o ∈ s.pool.accepted := by
  rw [p.pool.ledger.order]
  have hh := p.pool.tenure.started_subperm.subset h
  exact List.mem_append_left _ (List.mem_append_left _ (List.mem_map_of_mem hh))

theorem origin_of_accepted (p : Provenance settings size capacity acts moves s) {o : Order}
    (h : o ∈ s.pool.accepted) : Origin settings acts o.number (.ok o.job) := by
  refine p.orders o (p.pool.ledger.submitted.mem_iff.2 ?_)
  exact List.mem_append_left _ (List.mem_append_left _ h)

theorem findSome?_eq {α β : Type} {f : α → Option β} {l : List α} {b : β}
    (h : ∃ a ∈ l, f a = some b) (hu : ∀ a ∈ l, ∀ c, f a = some c → c = b) : l.findSome? f = some b := by
  obtain ⟨a, ha, hb⟩ := h
  cases e : l.findSome? f with
  | none => rw [List.findSome?_eq_none_iff.1 e a ha] at hb; cases hb
  | some c =>
    obtain ⟨a', ha', hc⟩ := List.exists_of_findSome?_eq_some e
    rw [hu a' ha' c hc]

/-- The message of a job that was submitted did not fail before. -/
theorem lookup_of_submitted (p : Provenance settings size capacity acts moves s) {o : Order}
    (h : o ∈ submissions moves) : s.failures.lookup o.number = none := by
  have hn := p.numbers.nodup_iff.2 List.nodup_range
  refine List.lookup_eq_none_iff.2 fun f hf => bne_iff_ne.2 fun he => ?_
  refine (List.nodup_append.1 hn).2.2 f.1 ?_ o.number (List.mem_map_of_mem h) he.symm
  exact List.mem_append_right _ (List.mem_map_of_mem hf)

/-- What the pool says of a job is said of its message. -/
theorem outcome_of_note (p : Provenance settings size capacity acts moves s) {o : Order} :
    (o ∈ s.pool.accepted → s.outcome? o.number = some (.dispatched o.job.targets.length)) ∧
    (o ∈ s.pool.refused → s.outcome? o.number = some .dispatchFailed) := by
  obtain ⟨hna, hnr, hdisjoint⟩ := List.nodup_append.1 p.nodup_accepted
  have hs := p.pool.ledger.submitted
  unfold State.outcome?
  constructor
  · intro h
    rw [p.lookup_of_submitted (hs.mem_iff.2 (by simp [h]))]
    obtain ⟨x, hx, ho⟩ := mem_pick.1 h
    refine findSome?_eq ⟨x, hx, ?_⟩ fun y hy c hc => ?_
    · cases x <;> cases ho
      exact if_pos rfl
    · cases y with
      | accepted o' =>
        simp only [Option.ite_none_right_eq_some, Option.some.injEq] at hc
        have hm : o' ∈ s.pool.accepted := mem_pick.2 ⟨_, hy, rfl⟩
        rw [List.inj_on_of_nodup_map hna hm h hc.1] at hc
        exact hc.2.symm
      | refused o' =>
        simp only [Option.ite_none_right_eq_some, Option.some.injEq] at hc
        have hm : o' ∈ s.pool.refused := mem_pick.2 ⟨_, hy, rfl⟩
        exact absurd hc.1.symm (hdisjoint _ (List.mem_map_of_mem h) _ (List.mem_map_of_mem hm))
      | _ => cases hc
  · intro h
    rw [p.lookup_of_submitted (hs.mem_iff.2 (by simp [h]))]
    obtain ⟨x, hx, ho⟩ := mem_pick.1 h
    refine findSome?_eq ⟨x, hx, ?_⟩ fun y hy c hc => ?_
    · cases x <;> cases ho
      exact if_pos rfl
    · cases y with
      | accepted o' =>
        simp only [Option.ite_none_right_eq_some, Option.some.injEq] at hc
        have hm : o' ∈ s.pool.accepted := mem_pick.2 ⟨_, hy, rfl⟩
        exact absurd hc.1 (hdisjoint _ (List.mem_map_of_mem hm) _ (List.mem_map_of_mem h))
      | refused o' =>
        simp only [Option.ite_none_right_eq_some, Option.some.injEq] at hc
        exact hc.2.symm
      | _ => cases hc

/-- The message of a job that was accepted counts as dispatched. -/
theorem outcome_of_accepted (p : Provenance settings size capacity acts moves s) {o : Order}
    (h : o ∈ s.pool.accepted) : s.outcome? o.number = some (.dispatched o.job.targets.length) :=
  p.outcome_of_note.1 h

/-- The message of a job that was turned away counts as not dispatched. -/
theorem outcome_of_refused (p : Provenance settings size capacity acts moves s) {o : Order}
    (h : o ∈ s.pool.refused) : s.outcome? o.number = some .dispatchFailed :=
  p.outcome_of_note.2 h

theorem failed_or_submitted (p : Provenance settings size capacity acts moves s) {number : Nat}
    {outcome : Outcome} (h : s.outcome? number = some outcome) :
    (number, outcome) ∈ s.failures ∨ ∃ o ∈ submissions moves, o.number = number := by
  have hs := p.pool.ledger.submitted
  rcases State.outcome_cases h with h | ⟨o, ho, hn, -⟩ | ⟨o, ho, hn, -⟩
  · exact .inl h
  · exact .inr ⟨o, hs.mem_iff.2 (by simp [ho]), hn⟩
  · exact .inr ⟨o, hs.mem_iff.2 (by simp [ho]), hn⟩

/-- A message that nothing has become of is still being prepared, or was submitted. -/
theorem drafted_or_submitted (p : Provenance settings size capacity acts moves s) {number : Nat}
    {a : World × Move} (hm : (messages acts)[number]? = some a) (h : s.outcome? number = none) :
    (∃ d ∈ s.drafts, d.number = number) ∨ ∃ o ∈ submissions moves, o.number = number := by
  have hlt : number ∈ List.range s.arrivals := by
    rw [List.mem_range, ← p.arrivals]
    exact (List.getElem?_eq_some_iff.1 hm).1
  have hl : s.failures.lookup number = none := by
    unfold State.outcome? at h
    cases hl : s.failures.lookup number with
    | none => rfl
    | some o => rw [hl] at h; cases h
  rcases List.mem_append.1 (p.numbers.mem_iff.2 hlt) with h | h
  · rcases List.mem_append.1 h with h | h
    · exact .inl (List.mem_map.1 h)
    · obtain ⟨f, hf, rfl⟩ := List.mem_map.1 h
      exact absurd rfl (bne_iff_ne.1 (List.lookup_eq_none_iff.1 hl f hf))
  · exact .inr (List.mem_map.1 h)

end Provenance

end Herald.Pipeline
