import Herald.Proofs.Pipeline.Alike
import Herald.Proofs.Pipeline.Futile
import Herald.Proofs.Pool.Unparked

/-!
# Runs without the messages that come to nothing

Whatever happened in a run could have happened without the messages that came to nothing, however slow
the collaborators were and whatever came first. A second pipeline is given all messages but these; it
goes on side by side with the first one and makes the same moves, or none where the first one does
something for a lost message. Nobody waits outside its pool: a job that would have to wait is submitted
when it comes in.

* `State.step_withDrafts`: moves that do not depend on drafts.
* `Shadows`: how the second pipeline is behind the first one; `Shadows.step` keeps it.
* `State.Run.omit`: the second pipeline can keep up along a run.
-/

namespace Herald.Pipeline

variable {settings : Settings} {w : World} {s s' t : State} {m : Move} {acts : List (World × Move)}
  {size capacity sinkCapacity : Nat} {lost : Nat → Bool} {drafts : List Draft} {d : Draft}

/-! ## Moves with other drafts -/

/-- The job of a draft that has one. -/
def Draft.order? (d : Draft) : Option Order :=
  match d.result with
  | .ok job => some ⟨d.number, job⟩
  | .error _ => none

namespace State

/-- The pipeline with other drafts, and as if nobody waited to submit a job. -/
def withDrafts (s : State) (drafts : List Draft) : State :=
  { s with drafts, pool := s.pool.unparked }

/-- A draft with a job in it is submitted. -/
theorem withDrafts_submit {position : Nat} {o : Order} (hd : drafts[position]? = some d)
    (hdue : d.due ≤ s.now) (ho : d.order? = some o) :
    (s.withDrafts drafts).step settings w (.submit position) =
      some { s.withDrafts (drafts.eraseIdx position) with pool := s.pool.unparked.submit o } := by
  obtain ⟨number, due, result⟩ := d
  cases result with
  | error => cases ho
  | ok job =>
    cases ho
    have hd' : (s.withDrafts drafts).drafts[position]? = some ⟨number, due, .ok job⟩ := hd
    have hdue' : due ≤ (s.withDrafts drafts).now := hdue
    simp only [State.step, hd', hdue', if_true]
    rfl

theorem withDrafts_begin (s : State) (drafts : List Draft) (worker : Nat) :
    (s.withDrafts drafts).begin worker = (s.begin worker).withDrafts drafts := by
  have ho : (s.withDrafts drafts).order? worker = s.order? worker := rfl
  unfold begin
  rw [ho]
  cases s.order? worker <;> rfl

end State

/-- Neither a message nor a job comes in with the move. -/
def Move.isLater : Move → Bool
  | .arrive _ | .enter _ | .submit _ => false
  | .pool m => !m.isEntry
  | _ => true

theorem Move.isMessage_of_later (h : m.isLater = true) : m.isMessage = false := by
  cases m with
  | arrive | enter | submit => cases h
  | _ => rfl

/-- Pools are told apart by their logs only. -/
theorem State.Alike.of_pool {p q : Pool.State Order} (h : p.forget = q.forget) :
    State.Alike { s with pool := p } { s with pool := q } :=
  .mk rfl (congrArg (Pool.State.relabel (·.plain)) h) rfl

/-- Such a move depends neither on drafts nor on who waits to submit a job. -/
theorem State.step_withDrafts (s : State) (drafts : List Draft) (hm : m.isLater = true) :
    ((s.withDrafts drafts).step settings w m).map plain =
      (s.step settings w m).map fun s' => (s'.withDrafts drafts).plain := by
  have hpool {p q : Pool.State Order} (h : p.forget = q.unparked.forget) :
      State.Alike { s.withDrafts drafts with pool := p }
        (({ s with pool := q } : State).withDrafts drafts) :=
    .of_pool (s := s.withDrafts drafts) h
  have hs : (s.withDrafts drafts).pool = s.pool.unparked := rfl
  cases m with
  | arrive | enter | submit => cases hm
  | stop =>
    simp only [State.step, hs]
    rcases cases_of_map_eq (s.pool.step_unparked (m := .stop) rfl) with
      ⟨h, h'⟩ | ⟨p, q, h, h', hpq⟩
    · rw [h, h']; rfl
    · rw [h, h']
      exact congrArg some (hpool hpq)
  | pool m =>
    have hentry : m.isEntry = false := by simpa [Move.isLater] using hm
    simp only [State.step, hs]
    split
    · rcases cases_of_map_eq (s.pool.step_unparked hentry) with ⟨h, h'⟩ | ⟨p, q, h, h', hpq⟩
      · rw [h, h']; rfl
      · rw [h, h']
        cases m with
        | start worker | look worker =>
          refine congrArg some (((hpool hpq).begin worker).trans ?_)
          rw [withDrafts_begin]
        | _ => exact congrArg some (hpool hpq)
    · rfl
  | finish worker =>
    have hw : (s.withDrafts drafts).delivery.workers = s.delivery.workers := rfl
    simp only [State.step, hs, hw]
    split
    · rfl
    · split
      · rfl
      · rcases cases_of_map_eq (s.pool.step_unparked (m := .finish worker) rfl) with
          ⟨h, h'⟩ | ⟨p, q, h, h', hpq⟩
        · rw [h, h']; rfl
        · rw [h, h']
          exact congrArg some (hpool hpq)
  | deliver worker m =>
    have hd : (s.withDrafts drafts).delivery = s.delivery := rfl
    simp only [State.step, hd]
    cases s.delivery.step settings.delivery w.delivery worker m <;> rfl
  | pass => rfl

/-! ## What is left -/

/-- The messages that are lost are those of which it is known that they came to nothing. -/
structure Loses (lost : Nat → Bool) (s : State) : Prop where
  failures : ∀ f ∈ s.failures, lost f.1 = true
  refused : ∀ o ∈ s.pool.refused, lost o.number = true
  accepted : ∀ o ∈ s.pool.accepted, lost o.number = false

/-- What is known of a message was not otherwise before. -/
theorem Loses.of_step (l : Loses lost s') (h : Step settings w s m s') : Loses lost s := by
  obtain ⟨new, hn⟩ := h.pool_log
  refine ⟨fun f hf => l.failures f ?_, fun o ho => l.refused o ?_, fun o ho => l.accepted o ?_⟩
  · cases h with
    | malformed => exact List.mem_cons_of_mem _ hf
    | submit =>
      unfold State.submit
      split
      · exact List.mem_cons_of_mem _ hf
      · exact hf
    | _ => exact hf
  · unfold Pool.State.refused
    rw [hn, pick_append]
    exact List.mem_append_left _ ho
  · unfold Pool.State.accepted
    rw [hn, pick_append]
    exact List.mem_append_left _ ho

/-- The jobs that wait to come into a pool, those of lost messages apart. -/
def State.outside (lost : Nat → Bool) (s : State) : List Order :=
  (s.pool.intake.waiting.map (·.2)).filter (!lost ·.number)

/-- The drafts are those of a pipeline and those of the jobs that wait outside its pool; only the drafts
of lost messages are missing. -/
def Remain (lost : Nat → Bool) (s : State) (drafts : List Draft) : Prop :=
  ∃ parked : List Draft, parked.map (·.order?) = (s.outside lost).map some ∧
    (∀ d ∈ parked, d.due ≤ s.now) ∧ drafts.Perm (s.drafts.filter (!lost ·.number) ++ parked)

/-- The second pipeline goes on like the first one, but without the lost messages; and whoever would wait
there to submit a job has not submitted it yet. -/
def Shadows (lost : Nat → Bool) (s t : State) : Prop :=
  ∃ drafts, Remain lost s drafts ∧ t.Alike (s.withDrafts drafts)

/-- Leaving out what is not kept does not depend on it. -/
theorem filter_eraseIdx {α : Type} {p : α → Bool} {l : List α} {a : α} {i : Nat}
    (h : l[i]? = some a) (ha : p a = false) : (l.eraseIdx i).filter p = l.filter p := by
  induction l generalizing i with
  | nil => rfl
  | cons b l ih =>
    cases i with
    | zero =>
      cases h
      rw [List.eraseIdx_cons_zero, List.filter_cons_of_neg (by simp [ha])]
    | succ i => rw [List.eraseIdx_cons_succ, List.filter_cons, List.filter_cons, ih h]

namespace Remain

theorem mono (h : Remain lost s drafts)
    (hd : s'.drafts.filter (!lost ·.number) = s.drafts.filter (!lost ·.number))
    (ho : s'.outside lost = s.outside lost) (hn : s.now ≤ s'.now) : Remain lost s' drafts := by
  obtain ⟨parked, hp, hdue, hperm⟩ := h
  exact ⟨parked, ho ▸ hp, fun d hd => Nat.le_trans (hdue d hd) hn, hd ▸ hperm⟩

theorem perm {drafts' : List Draft} (h : Remain lost s drafts) (hp : drafts'.Perm drafts) :
    Remain lost s drafts' := by
  obtain ⟨parked, hparked, hdue, hperm⟩ := h
  exact ⟨parked, hparked, hdue, hp.trans hperm⟩

section

variable {position : Nat} (h : Remain lost s drafts) (hd : s.drafts[position]? = some d)
  (hs : s'.drafts = s.drafts.eraseIdx position) (hn : s'.now = s.now)
include h hd hs hn

/-- The draft of a lost message goes. -/
theorem drop (hl : lost d.number = true) (ho : s'.outside lost = s.outside lost) :
    Remain lost s' drafts := by
  refine h.mono ?_ ho (Nat.le_of_eq hn.symm)
  rw [hs]
  exact filter_eraseIdx hd (by simp [hl])

/-- Any other draft that goes has remained. -/
theorem take (hl : lost d.number = false) (ho : s'.outside lost = s.outside lost) :
    ∃ rest, drafts.Perm (d :: rest) ∧ Remain lost s' rest := by
  obtain ⟨parked, hparked, hdue, hperm⟩ := h
  have hp := (perm_eraseIdx hd).filter (!lost ·.number)
  rw [List.filter_cons_of_pos (by simp [hl]), ← hs] at hp
  exact ⟨_, hperm.trans (hp.append_right parked), parked, ho ▸ hparked, hn ▸ hdue, .refl _⟩

/-- A draft that goes because its job waits outside remains. -/
theorem park {o : Order} (hl : lost d.number = false) (hdue : d.due ≤ s.now)
    (hdo : d.order? = some o) (ho : s'.outside lost = s.outside lost ++ [o]) : Remain lost s' drafts := by
  obtain ⟨parked, hparked, hparkedDue, hperm⟩ := h
  refine ⟨parked ++ [d], ?_, fun d' hd' => ?_, ?_⟩
  · rw [ho, List.map_append, List.map_append, hparked, List.map_singleton, hdo, List.map_singleton]
  · rcases List.mem_append.1 hd' with hd' | hd'
    · exact hn ▸ hparkedDue d' hd'
    · exact List.mem_singleton.1 hd' ▸ hn ▸ hdue
  · have hp := (perm_eraseIdx hd).filter (!lost ·.number)
    rw [List.filter_cons_of_pos (by simp [hl]), ← hs] at hp
    refine (hperm.trans (hp.append_right parked)).trans ?_
    rw [← List.append_assoc]
    exact (List.perm_append_singleton _ _).symm

end

/-- A job that has waited outside has its draft. -/
theorem enter {o : Order} {before after : List Order} (h : Remain lost s drafts)
    (hs : s'.drafts = s.drafts) (hn : s'.now = s.now) (ho : s.outside lost = before ++ o :: after)
    (ho' : s'.outside lost = before ++ after) :
    ∃ d rest, drafts.Perm (d :: rest) ∧ d.due ≤ s.now ∧ d.order? = some o ∧ Remain lost s' rest := by
  obtain ⟨parked, hparked, hdue, hperm⟩ := h
  rw [ho, List.map_append, List.map_cons] at hparked
  obtain ⟨first, rest, rfl, hfirst, hrest⟩ := List.map_eq_append_iff.1 hparked
  obtain ⟨d, last, rfl, hd, hlast⟩ := List.map_eq_cons_iff.1 hrest
  refine ⟨d, s.drafts.filter (!lost ·.number) ++ (first ++ last), ?_, hdue d (by simp), hd,
    first ++ last, ?_, fun d hd => hn ▸ hdue d ?_, hs ▸ .refl _⟩
  · rw [← List.append_assoc] at hperm ⊢
    exact hperm.trans List.perm_middle
  · rw [ho', List.map_append, List.map_append, hfirst, hlast]
  · rcases List.mem_append.1 hd with hd | hd <;> simp [hd]

end Remain

/-- The second pipeline comes to shadow the first one by moves of its own, with which these messages come
in. -/
def CatchesUp (settings : Settings) (lost : Nat → Bool) (s t : State) (news : List (World × Move)) :
    Prop :=
  ∃ inner t', State.Run settings t inner t' ∧ Shadows lost s t' ∧ messages inner = news

theorem Shadows.catchesUp (h : Shadows lost s t) : CatchesUp settings lost s t [] :=
  ⟨[], t, .refl, h, rfl⟩

/-- The job of a draft comes in at once. -/
theorem CatchesUp.comeIn {o : Order} {rest : List Draft} (ha : t.Alike (s.withDrafts drafts))
    (hp : drafts.Perm (d :: rest)) (hdue : d.due ≤ s.now) (ho : d.order? = some o)
    (hpool : s'.pool.unparked = s.pool.unparked.submit o) (hd : s'.delivery = s.delivery)
    (hr : Remain lost s' rest) (w : World) : CatchesUp settings lost s' t [] := by
  obtain ⟨position, hposition⟩ := List.mem_iff_getElem?.1 (hp.symm.subset (List.mem_cons_self ..))
  have hrest : (drafts.eraseIdx position).Perm rest :=
    (List.perm_cons d).1 ((perm_eraseIdx hposition).symm.trans hp)
  have hstep := ha.step settings w (.submit position)
  rw [State.withDrafts_submit hposition hdue ho] at hstep
  obtain ⟨t', ht, hplain⟩ := Option.map_eq_some_iff.1 hstep
  have hrelabel := congrArg (Pool.State.relabel (·.plain)) hpool.symm
  have hdelivery : s.delivery.plain = s'.delivery.plain := by rw [hd]
  have hs' : State.Alike
      { s.withDrafts (drafts.eraseIdx position) with pool := s.pool.unparked.submit o }
      (s'.withDrafts (drafts.eraseIdx position)) := .mk rfl hrelabel hdelivery
  have ht' : t'.Alike _ := hplain
  exact ⟨[(w, .submit position)], t', .step _ .refl ht, ⟨_, hr.perm hrest, ht'.trans hs'⟩, rfl⟩

namespace Shadows

/-- Nothing of a lost event is left. -/
theorem enter_lost (h : Shadows lost s t) (hl : lost s.arrivals = true) (e : Event) :
    Shadows lost (s.enter settings w e) t := by
  obtain ⟨drafts, hr, ha⟩ := h
  refine ⟨drafts, hr.mono ?_ rfl (Nat.le_refl _), ha.trans (State.Alike.mk rfl rfl ?_)⟩
  · show (s.drafts ++ [_]).filter _ = _
    rw [List.filter_append, List.filter_cons_of_neg (by simp [hl]), List.filter_nil, List.append_nil]
  · show s.delivery.plain = ({ s.delivery with log := _ ++ s.delivery.log } : Delivery.State).plain
    rw [Delivery.State.plain_append, plain_calls preparatory_prepare]
    rfl

theorem enter (h : Shadows lost s t) (hl : lost s.arrivals = false) (e : Event) :
    Shadows lost (s.enter settings w e) (t.enter settings w e) := by
  obtain ⟨drafts, ⟨parked, hp, hdue, hperm⟩, ha⟩ := h
  let d : Draft := ⟨s.arrivals, s.now + (prepare settings w e).elapsed, (prepare settings w e).value⟩
  refine ⟨drafts ++ [d], ⟨parked, hp, hdue, ?_⟩, ha.enter e⟩
  have hf : (s.enter settings w e).drafts.filter (!lost ·.number) =
      s.drafts.filter (!lost ·.number) ++ [d] := by
    show (s.drafts ++ [d]).filter _ = _
    rw [List.filter_append, List.filter_cons_of_pos (by simp [d, hl]), List.filter_nil]
  have hcomm : (parked ++ [d]).Perm ([d] ++ parked) := List.perm_append_comm
  rw [hf, List.append_assoc]
  refine (hperm.append_right [d]).trans ?_
  rw [List.append_assoc]
  exact hcomm.append_left _

/-- An event that comes in is given to the second pipeline as well, unless it is lost. -/
theorem event (h : Shadows lost s t) {e : Event} (hm : m.isMessage = true)
    (ht : t.step settings w m = some (t.enter settings w e)) :
    CatchesUp settings lost (s.enter settings w e) t (if !lost s.arrivals then [(w, m)] else []) := by
  cases hl : lost s.arrivals with
  | true => exact (h.enter_lost hl e).catchesUp
  | false =>
    refine ⟨[(w, m)], _, .step _ .refl ht, h.enter hl e, ?_⟩
    rw [messages_cons, hm]
    rfl

/-- What is no event is lost. -/
theorem malformed (h : Shadows lost s t) {payload : List UInt8} (he : Event.decode? payload = none)
    (l : Loses lost (s.arrive settings w payload)) :
    CatchesUp settings lost (s.arrive settings w payload) t
      (if !lost s.arrivals then [(w, .arrive payload)] else []) := by
  have harrive : s.arrive settings w payload = { s with
      arrivals := s.arrivals + 1, failures := (s.arrivals, .malformed) :: s.failures } := by
    unfold State.arrive; rw [he]
  rw [harrive] at l ⊢
  obtain ⟨drafts, hr, ha⟩ := h
  rw [l.failures _ (List.mem_cons_self ..)]
  exact Shadows.catchesUp ⟨drafts, hr.mono rfl rfl (Nat.le_refl _), ha⟩

/-- What becomes of a job. One that waits outside its pool is not submitted before it comes in. -/
theorem submitJob (h : Shadows lost s t) {position : Nat} {o : Order} {pool : Pool.State Order}
    (hd : s.drafts[position]? = some d) (hdue : d.due ≤ s.now) (hdo : d.order? = some o)
    (hno : o.number = d.number) (hp : s.pool.step (.submit o) = some pool)
    (l : Loses lost { s with drafts := s.drafts.eraseIdx position, pool }) (w : World) :
    CatchesUp settings lost { s with drafts := s.drafts.eraseIdx position, pool } t [] := by
  obtain ⟨drafts, hr, ha⟩ := h
  cases Pool.Step.of_step hp with
  | refuse =>
    have hl : lost d.number = true := hno ▸ l.refused o (Pool.State.mem_refused_note _ o)
    exact Shadows.catchesUp ⟨drafts, hr.drop hd rfl rfl hl rfl, ha⟩
  | @accept _ intake hsend =>
    have hl : lost d.number = false := hno ▸ l.accepted o (Pool.State.mem_accepted_note _ o)
    have hout : State.outside lost { s with
        drafts := s.drafts.eraseIdx position
        pool := { s.pool with intake }.note (.accepted o) } = s.outside lost := by
      obtain ⟨_, rfl⟩ := Channel.put_of_send? hsend
      rfl
    obtain ⟨rest, hperm, hrest⟩ := hr.take hd (by rfl) (by rfl) hl hout
    exact .comeIn ha hperm hdue hdo (Pool.State.submit_unparked hsend).symm rfl hrest w
  | @park _ ticket intake hsend =>
    have hout : State.outside lost { s with
        drafts := s.drafts.eraseIdx position, pool := { s.pool with intake } } =
        s.outside lost ++ [o].filter (!lost ·.number) := by
      unfold State.outside
      rcases Channel.send?_cases hsend with ⟨h, -⟩ | ⟨-, -, hw, -⟩
      · cases h
      · rw [hw, List.map_append, List.filter_append]
        rfl
    have hpool : s.pool.unparked = Pool.State.unparked { s.pool with intake } := by
      unfold Pool.State.unparked
      rw [Channel.unparked_of_park hsend]
    -- The second pipeline keeps the draft until the job comes in, if it ever does.
    refine Shadows.catchesUp ⟨drafts, ?_, ha.trans (State.Alike.mk rfl (congrArg _ hpool) rfl)⟩
    cases hl : lost d.number with
    | true =>
      rw [List.filter_cons_of_neg (by simp [hno, hl]), List.filter_nil, List.append_nil] at hout
      exact hr.drop hd rfl rfl hl hout
    | false =>
      rw [List.filter_cons_of_pos (by simp [hno, hl]), List.filter_nil] at hout
      exact hr.park hd rfl rfl hl hdue hdo hout

/-- What becomes of a draft. -/
theorem submit (h : Shadows lost s t) {position : Nat} (hd : s.drafts[position]? = some d)
    (hdue : d.due ≤ s.now)
    (l : Loses lost ({ s with drafts := s.drafts.eraseIdx position }.submit d)) (w : World) :
    CatchesUp settings lost ({ s with drafts := s.drafts.eraseIdx position }.submit d) t [] := by
  obtain ⟨number, due, result⟩ := d
  cases result with
  | error outcome =>
    obtain ⟨drafts, hr, ha⟩ := h
    have hl : lost number = true := l.failures _ (List.mem_cons_self ..)
    exact Shadows.catchesUp ⟨drafts, hr.drop hd rfl rfl hl rfl, ha⟩
  | ok job => exact h.submitJob hd hdue rfl rfl rfl l w

/-- A job that has waited outside comes in. -/
theorem enterPool (h : Shadows lost s t) (hg : Pool.Gate s.pool) {ticket : Nat}
    {pool : Pool.State Order} (hp : s.pool.step (.enter ticket) = some pool)
    (l : Loses lost { s with pool }) (w : World) :
    CatchesUp settings lost { s with pool } t [] := by
  obtain ⟨drafts, hr, ha⟩ := h
  cases Pool.Step.of_step hp with
  | @enter _ o intake e =>
  have hl : lost o.number = false := l.accepted o (Pool.State.mem_accepted_note _ o)
  obtain ⟨-, -, before, after, hw, hw', -⟩ := Channel.enter?_cases e
  -- Nobody waits outside a closed intake.
  have hopen : s.pool.intake.isClosed = false := Bool.eq_false_iff.2 fun hc => by
    have hn := hg.turnedAway hc
    simp [hw] at hn
  have hout : s.outside lost = (before.map (·.2)).filter (!lost ·.number) ++
      o :: (after.map (·.2)).filter (!lost ·.number) := by
    unfold State.outside
    rw [hw, List.map_append, List.filter_append, List.map_cons, List.filter_cons_of_pos (by simp [hl])]
  have hout' : State.outside lost { s with pool := { s.pool with intake }.note (.accepted o) } =
      (before.map (·.2)).filter (!lost ·.number) ++ (after.map (·.2)).filter (!lost ·.number) := by
    unfold State.outside
    rw [Pool.State.intake_note, hw', List.map_append, List.filter_append]
  obtain ⟨d, rest, hperm, hdue, hd, hrest⟩ := hr.enter (by rfl) (by rfl) hout hout'
  exact .comeIn ha hperm hdue hd (Pool.State.enter_unparked hopen e).symm rfl hrest w

end Shadows

/-- If jobs that wait outside are turned away, then their messages are lost. -/
theorem Loses.outside_eq (l : Loses lost s') {m : Pool.Move Order} (hm : m.isEntry = false)
    (hp : s.pool.step m = some s'.pool) : s'.outside lost = s.outside lost := by
  unfold State.outside
  rcases (Pool.Step.of_step hp).waiting hm with hw | ⟨hw, hrefused⟩
  · rw [hw]
  · rw [hw, List.map_nil, List.filter_nil]
    refine (List.filter_eq_nil_iff.2 fun o ho => ?_).symm
    obtain ⟨w, hw, rfl⟩ := List.mem_map.1 ho
    simp [l.refused _ (hrefused w hw)]

/-- What a move leaves as it is with which nothing comes in. -/
theorem Step.later (h : Step settings w s m s') (hm : m.isLater = true) (l : Loses lost s') :
    s'.drafts = s.drafts ∧ s'.outside lost = s.outside lost ∧ s.now ≤ s'.now := by
  cases h with
  | enter he =>
    have hn := Move.isMessage_of_later hm
    rw [isMessage_of_event he] at hn
    cases hn
  | malformed | submit => cases hm
  | stop hp | finish _ _ hp => exact ⟨rfl, l.outside_eq rfl hp, Nat.le_refl _⟩
  | pool _ hp | begin _ hp =>
    exact ⟨rfl, l.outside_eq (by simpa [Move.isLater] using hm) hp, Nat.le_refl _⟩
  | deliver hd => exact ⟨rfl, rfl, Nat.le_of_eq (Delivery.State.now_step hd).symm⟩
  | pass => exact ⟨rfl, rfl, Nat.le_max_left ..⟩

/-- No other move has to do with what comes in. -/
theorem Shadows.later (h : Shadows lost s t) (hs : s.step settings w m = some s')
    (hm : m.isLater = true) (l : Loses lost s') : CatchesUp settings lost s' t [] := by
  obtain ⟨drafts, hr, ha⟩ := h
  obtain ⟨hd, ho, hn⟩ := Step.later (.of_step hs) hm l
  have hstep := (ha.step settings w m).trans (s.step_withDrafts drafts hm)
  rw [hs] at hstep
  obtain ⟨t', ht, hplain⟩ := Option.map_eq_some_iff.1 hstep
  refine ⟨[(w, m)], t', .step _ .refl ht, ⟨drafts, hr.mono (by rw [hd]) ho hn, hplain⟩, ?_⟩
  rw [messages_cons, Move.isMessage_of_later hm]
  rfl

/-- The second pipeline goes on after each move of the first; it is given the same messages, but the lost
ones. -/
theorem Shadows.step (h : Shadows lost s t) (hg : Pool.Gate s.pool)
    (hs : s.step settings w m = some s') (l : Loses lost s') :
    CatchesUp settings lost s' t (if m.isMessage && !lost s.arrivals then [(w, m)] else []) := by
  cases m with
  | arrive payload =>
    cases hs
    cases he : Event.decode? payload with
    | some e =>
      have harrive (s : State) : s.arrive settings w payload = s.enter settings w e := by
        unfold State.arrive; rw [he]
      rw [harrive s]
      exact h.event rfl (congrArg some (harrive t))
    | none => exact h.malformed he l
  | enter e =>
    cases hs
    exact h.event rfl rfl
  | submit position =>
    cases Step.of_step hs with
    | enter he => cases he
    | submit hd hdue => exact h.submit hd hdue l w
  | pool m =>
    cases hm : m.isEntry with
    | false => exact h.later hs (by simp [Move.isLater, hm]) l
    | true =>
      cases m with
      | enter ticket =>
        simp only [State.step, Pool.Move.isOwn, if_true] at hs
        split at hs
        · cases hs
        · next pool hp =>
          cases hs
          exact h.enterPool hg hp l w
      | submit => cases hs
      | _ => cases hm
  | stop | finish | deliver | pass => exact h.later hs rfl l

/-- Messages that come to nothing are lost, and no others are. -/
theorem State.Run.loses (run : State.Run settings (.create size capacity sinkCapacity) acts s) :
    Loses s.isFutile s := by
  obtain ⟨moves, p⟩ := run.provenance
  refine ⟨fun f hf => ?_, fun o ho => ?_, fun o ho => ?_⟩
  · obtain ⟨outcome, hl⟩ := Option.isSome_iff_exists.1
      (List.lookup_isSome_iff.2 ⟨f, hf, beq_self_eq_true f.1⟩)
    obtain ⟨before, after, hb, -⟩ := List.lookup_eq_some_iff.1 hl
    have hmem : (f.1, outcome) ∈ s.failures := hb ▸ List.mem_append_right _ (List.mem_cons_self ..)
    have hd : outcome.isDispatched = false := by
      rcases run.explained _ hmem with ⟨_, _, _, -, -, hr⟩ | ⟨rfl, -⟩
      · exact (prepare_eq_error hr).2
      · rfl
    simp [State.isFutile, State.outcome?, hl, hd]
  · simp [State.isFutile, p.outcome_of_refused ho, Outcome.isDispatched]
  · simp [State.isFutile, p.outcome_of_accepted ho, Outcome.isDispatched]

/-- Every run could have gone on in the same way without the lost messages. Which ones are lost is known
at the end of the run, and is the same on the whole way to it. -/
theorem State.Run.omit (run : State.Run settings (.create size capacity sinkCapacity) acts s)
    (l : Loses lost s) :
    ∃ acts' t, State.Run settings (.create size capacity sinkCapacity) acts' t ∧
      messages acts' = ((messages acts).zipIdx.filter (!lost ·.2)).map (·.1) ∧ Shadows lost s t := by
  induction run with
  | refl =>
    refine ⟨[], _, .refl, rfl, [], ⟨[], rfl, fun _ h => absurd h List.not_mem_nil, .refl _⟩, rfl⟩
  | @step acts s s' a run hstep ih =>
    obtain ⟨w, m⟩ := a
    obtain ⟨acts', t, run', hmessages, h⟩ := ih (l.of_step (.of_step hstep))
    obtain ⟨moves, p⟩ := State.Run.provenance run
    obtain ⟨inner, t', hinner, h', hm⟩ := h.step p.pool.gate hstep l
    refine ⟨inner ++ acts', t', run'.trans hinner, ?_, h'⟩
    have happend : messages (inner ++ acts') = messages acts' ++ messages inner := pick_append ..
    rw [happend, hmessages, hm, messages_cons, List.zipIdx_append, List.filter_append, List.map_append]
    -- The new message, if there is one, has the number of those before it.
    congr 1
    cases m.isMessage with
    | false => rfl
    | true => cases hl : lost s.arrivals <;> simp [p.arrivals, hl]

end Herald.Pipeline
