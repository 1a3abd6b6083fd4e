import Herald.Audience
import Herald.Content
import Mathlib.Data.List.Forall2

/-!
# Who hears about an event

* `Resolver.mem_resolve`: whoever is among the recipients of an event is concerned by it and wants
  to hear about it.
* `Registry.not_private_of_build`: nobody hears about private rooms.
-/

namespace Herald

variable {ε α β : Type}

/-! ## Computations that may fail -/

namespace Timed

/-- What a computation yields whose first part may fail. -/
theorem value_run_bind (x : ExceptT ε Timed α) (f : α → ExceptT ε Timed β) :
    (x >>= f).run.value = match x.run.value with
      | .ok a => (f a).run.value
      | .error cause => .error cause := by
  have hb : (x >>= f).run = x.run >>= fun
      | .ok a => (f a).run
      | .error cause => pure (.error cause) := rfl
  rw [hb, value_bind]
  cases x.run.value <;> rfl

/-- A first part that takes no time, and asks nobody. -/
theorem value_mk_bind (r : Except ε α) (f : α → ExceptT ε Timed β) :
    ((ExceptT.mk (pure r) : ExceptT ε Timed α) >>= f).run.value = r >>= fun a => (f a).run.value := by
  cases r <;> rfl

/-- A first part that cannot fail. -/
theorem value_lift_bind (t : Timed α) (f : α → ExceptT ε Timed β) :
    (ExceptT.lift t >>= f).run.value = (f t.value).run.value := rfl

/-- A computation that yields something has gone through its first part. -/
theorem value_bind_ok {x : ExceptT ε Timed α} {f : α → ExceptT ε Timed β} {b : β}
    (h : (x >>= f).run.value = .ok b) : ∃ a, x.run.value = .ok a ∧ (f a).run.value = .ok b := by
  rw [value_run_bind] at h
  cases hx : x.run.value with
  | ok a => rw [hx] at h; exact ⟨a, rfl, h⟩
  | error cause => rw [hx] at h; cases h

theorem value_pure_ok {a b : α} (h : (pure a : ExceptT ε Timed α).run.value = .ok b) : a = b :=
  Except.ok.inj h

end Timed

/-! ## One after the other -/

section

variable {f : α → Except ε β} {as : List α} {bs : List β} {a : α} {b : β} {cause c : ε}

/-- The first member of a list that fails does so for this reason. -/
def FailsFirst (f : α → Except ε β) (as : List α) (cause : ε) : Prop :=
  ∃ before a after, as = before ++ a :: after ∧ f a = .error cause ∧ ∀ q ∈ before, ∃ b, f q = .ok b

theorem not_failsFirst_nil : ¬FailsFirst f [] cause := by
  rintro ⟨before, a, after, h, -⟩
  simp at h

theorem failsFirst_cons_of_ok (h : f a = .ok b) :
    FailsFirst f (a :: as) cause ↔ FailsFirst f as cause := by
  constructor
  · rintro ⟨before, q, after, hs, hq, hb⟩
    cases before with
    | nil => cases hs; rw [h] at hq; cases hq
    | cons p before =>
      cases hs
      exact ⟨before, q, after, rfl, hq, (List.forall_mem_cons.1 hb).2⟩
  · rintro ⟨before, q, after, rfl, hq, hb⟩
    exact ⟨a :: before, q, after, rfl, hq, List.forall_mem_cons.2 ⟨⟨b, h⟩, hb⟩⟩

theorem failsFirst_cons_of_error (h : f a = .error c) : FailsFirst f (a :: as) cause ↔ c = cause := by
  constructor
  · rintro ⟨before, q, after, hs, hq, hb⟩
    cases before with
    | nil => cases hs; rw [h] at hq; cases hq; rfl
    | cons p before =>
      cases hs
      obtain ⟨b, hp⟩ := hb a (List.mem_cons_self ..)
      rw [h] at hp
      cases hp
  · rintro rfl
    exact ⟨[], a, as, rfl, h, nofun⟩

/-- What is done with all members of a list succeeds with what it comes to for each of them. -/
theorem mapM_eq_ok : as.mapM f = .ok bs ↔ List.Forall₂ (fun a b => f a = .ok b) as bs := by
  induction as generalizing bs with
  | nil => cases bs <;> simp [pure, Except.pure]
  | cons a as ih =>
    rw [List.mapM_cons]
    cases h : f a with
    | error c => cases bs <;> simp [bind, Except.bind, h]
    | ok b =>
      cases hs : as.mapM f with
      | error c => cases bs <;> simp [bind, Except.bind, ← ih, hs]
      | ok cs => cases bs <;> simp [bind, Except.bind, pure, Except.pure, ← ih, hs, h]

/-- What is done with all members of a list fails as the first of them does that fails. -/
theorem mapM_eq_error : as.mapM f = .error cause ↔ FailsFirst f as cause := by
  induction as with
  | nil => exact iff_of_false nofun not_failsFirst_nil
  | cons a as ih =>
    rw [List.mapM_cons]
    cases h : f a with
    | error c =>
      rw [failsFirst_cons_of_error h]
      exact ⟨Except.error.inj, congrArg _⟩
    | ok b =>
      rw [failsFirst_cons_of_ok h, ← ih]
      cases as.mapM f <;> simp [bind, Except.bind, pure, Except.pure]

theorem mem_of_mapM (h : as.mapM f = .ok bs) (hb : b ∈ bs) : ∃ a ∈ as, f a = .ok b := by
  have hall := mapM_eq_ok.1 h
  clear h
  induction hall with
  | nil => cases hb
  | cons h _ ih =>
    rcases List.mem_cons.1 hb with rfl | hb
    · exact ⟨_, List.mem_cons_self .., h⟩
    · obtain ⟨a, ha, h⟩ := ih hb
      exact ⟨a, List.mem_cons_of_mem _ ha, h⟩

end

/-! ## Recipients -/

/-- The event is of a kind that the user wants to hear about. -/
def Event.isWanted (u : Recipient) : Event → Bool
  | .newFollower .. => u.wantsFollows
  | .roomCreation .. | .roomJoin .. => u.wantsRooms
  | .welcomeRoom .. => u.wantsWelcomes
  | .roomInvite .. | .followRecommendations .. => true

namespace Resolver

variable {r : Resolver} {u : Recipient} {us targets : List Recipient} {e : Event}

/-- The user is one of those whom an event concerns, with the preferences that were looked up. -/
def Concerns (r : Resolver) (u : Recipient) : Event → Prop
  | .newFollower _ followee => (r.user 0 followee).run.value = .ok u
  | .roomCreation _ member _ | .roomJoin _ member _ =>
    ∃ us, (r.followers member).run.value = .ok us ∧ u ∈ us
  | .roomInvite _ _ guest => (r.user 0 guest).run.value = .ok u
  | .welcomeRoom newcomer _ => u.user ≠ newcomer ∧
    ((∃ us, r.activeUsers.run.value = .ok us ∧ u ∈ us) ∨
      ∃ p ∈ r.greeters.zipIdx, (r.user p.2 p.1).run.value = .ok u)
  | .followRecommendations user _ => (r.user 0 user).run.value = .ok u

theorem mem_unseen {seen : List UserId} (h : u ∈ unseen seen us) : u ∈ us ∧ u.user ∉ seen := by
  induction us generalizing seen with
  | nil => cases h
  | cons v us ih =>
    unfold unseen at h
    split at h
    · obtain ⟨hm, hs⟩ := ih h
      exact ⟨List.mem_cons_of_mem _ hm, hs⟩
    · next hv =>
      rcases List.mem_cons.1 h with rfl | h
      · exact ⟨List.mem_cons_self .., hv⟩
      · obtain ⟨hm, hs⟩ := ih h
        exact ⟨List.mem_cons_of_mem _ hm, fun hu => hs (List.mem_cons_of_mem _ hu)⟩

theorem mem_welcomers {newcomer : UserId} (h : (r.welcomers newcomer).run.value = .ok us)
    (hu : u ∈ us) : u.user ≠ newcomer ∧ ((∃ us, r.activeUsers.run.value = .ok us ∧ u ∈ us) ∨
      ∃ p ∈ r.greeters.zipIdx, (r.user p.2 p.1).run.value = .ok u) := by
  obtain ⟨active, hactive, h⟩ := Timed.value_bind_ok h
  obtain ⟨answers, hanswers, h⟩ := Timed.value_bind_ok h
  obtain ⟨greeters, hgreeters, h⟩ := Timed.value_bind_ok h
  rw [← Timed.value_pure_ok h] at hu
  obtain ⟨hm, hs⟩ := mem_unseen hu
  refine ⟨by simpa using hs, ?_⟩
  rcases List.mem_append.1 hm with hm | hm
  · exact .inl ⟨active, hactive, List.mem_of_mem_take hm⟩
  · have ha : answers = r.greeters.zipIdx.map fun p => (r.user p.2 p.1).run.value := by
      have hv : (Timed.all (r.greeters.zipIdx.map fun p => (r.user p.2 p.1).run)).value = answers :=
        Except.ok.inj hanswers
      rw [← hv, Timed.value_all, List.map_map]; rfl
    obtain ⟨answer, hmem, hv⟩ := mem_of_mapM hgreeters hm
    obtain ⟨p, hp, rfl⟩ := List.mem_map.1 (ha ▸ hmem)
    exact .inr ⟨p, hp, hv⟩

/-- Whoever is among the recipients of an event is concerned by it and wants to hear about it. -/
theorem mem_resolve (h : (r.resolve e).run.value = .ok targets) (hu : u ∈ targets) :
    r.Concerns u e ∧ e.isWanted u = true := by
  cases e with
  | newFollower follower followee =>
    obtain ⟨v, hv, h⟩ := Timed.value_bind_ok h
    rw [← Timed.value_pure_ok h] at hu
    obtain ⟨hm, hw⟩ := List.mem_filter.1 hu
    rw [List.mem_singleton.1 hm] at hw ⊢
    exact ⟨hv, hw⟩
  | roomCreation room member visibility | roomJoin room member visibility =>
    obtain ⟨vs, hv, h⟩ := Timed.value_bind_ok h
    rw [← Timed.value_pure_ok h] at hu
    obtain ⟨hm, hw⟩ := List.mem_filter.1 hu
    exact ⟨⟨vs, hv, hm⟩, hw⟩
  | roomInvite room host user | followRecommendations user accounts =>
    obtain ⟨v, hv, h⟩ := Timed.value_bind_ok h
    rw [← Timed.value_pure_ok h] at hu
    rw [List.mem_singleton.1 hu]
    exact ⟨hv, rfl⟩
  | welcomeRoom newcomer room =>
    obtain ⟨vs, hv, h⟩ := Timed.value_bind_ok h
    rw [← Timed.value_pure_ok h] at hu
    obtain ⟨hm, hw⟩ := List.mem_filter.1 hu
    exact ⟨mem_welcomers hv hm, hw⟩

end Resolver

/-! ## Private rooms -/

/-- Something that happened in a private room. -/
def Event.isPrivate : Event → Bool
  | .roomCreation _ _ visibility | .roomJoin _ _ visibility => visibility = .private
  | _ => false

/-- Nothing is built for what happens in a private room. -/
theorem Registry.not_private_of_build {directories : Directories} {limit : Limit} {e : Event}
    {n : Notification} (h : ((Registry.standard directories limit).build e).run.value = .ok n) :
    e.isPrivate = false := by
  cases e with
  | roomCreation room member visibility | roomJoin room member visibility =>
    cases visibility with
    | «public» => rfl
    | «private» =>
      obtain ⟨_, h, -⟩ := Timed.value_bind_ok h
      cases h
  | _ => rfl

end Herald
