import Herald.Proofs.Membership
import Herald.Proofs.Suggestion

/-!
# Why nothing is built

The reasons for which nothing is built, by the kind of the event. Two reasons that alerts and builders
could give are not among them: there are always as many names as an alert shows, and no builder is
given an event that it does not know.

* `FailsOnly`: why a computation fails, one rule for each way to compose computations.
* `reason_of_build`: why nothing is built for an event.
* `never_unexpected`: which events are unexpected, for all registries.
-/

namespace Herald

open Content Phrasing

variable {α β : Type} {P Q : BuildError → Prop} {directories : Directories} {limit : Limit}

/-! ## Reasons -/

/-- A computation fails for no other reasons. -/
def FailsOnly (P : BuildError → Prop) (x : ExceptT BuildError Timed α) : Prop :=
  ∀ cause, x.run.value = .error cause → P cause

namespace FailsOnly

theorem pure (a : α) : FailsOnly P (pure a : ExceptT BuildError Timed α) := fun _ h => nomatch h

theorem throw {cause : BuildError} (h : P cause) :
    FailsOnly P (throw cause : ExceptT BuildError Timed α) := fun _ hc => Except.error.inj hc ▸ h

theorem lift (t : Timed α) : FailsOnly P (ExceptT.lift t : ExceptT BuildError Timed α) :=
  fun _ h => nomatch h

theorem mk {r : Except BuildError α} (h : ∀ cause, r = .error cause → P cause) :
    FailsOnly P (ExceptT.mk (Pure.pure r) : ExceptT BuildError Timed α) := h

theorem mono {x : ExceptT BuildError Timed α} (h : FailsOnly Q x) (hq : ∀ cause, Q cause → P cause) :
    FailsOnly P x := fun cause hc => hq cause (h cause hc)

/-- A computation fails as its first part does, or as what comes after it. -/
theorem bind {x : ExceptT BuildError Timed α} {f : α → ExceptT BuildError Timed β}
    (hx : FailsOnly P x) (hf : ∀ a, x.run.value = .ok a → FailsOnly P (f a)) :
    FailsOnly P (x >>= f) := by
  intro cause h
  rw [Timed.value_run_bind] at h
  cases hv : x.run.value with
  | ok a => rw [hv] at h; exact hf a hv cause h
  | error reason => rw [hv] at h; cases h; exact hx _ hv

/-- A lookup fails, or it finds nothing. -/
theorem ask {l : Lookups} {operation : String} {c : Call} {r : Reply Failure (Option α)}
    {absent : BuildError} :
    FailsOnly (fun cause => cause = absent ∨ ∃ why, cause = .lookup why) (l.ask operation c r absent) := by
  intro cause h
  rw [Lookups.value_ask] at h
  split at h <;> cases h
  · exact .inl rfl
  · exact .inr ⟨_, rfl⟩

end FailsOnly

/-! ## Names for an alert -/

/-- There is somebody, and there are as many names as an alert shows of so many people. -/
def Enough (names : List String) (count : Nat) : Prop := 0 < count ∧ min 3 count ≤ names.length

theorem Enough.alert {names : List String} {count : Nat} (h : Enough names count) (stem : String)
    (leading : Option String) : ∃ alert, pluralise stem leading names count = .ok alert :=
  ⟨_, pluralise_ok h.1 h.2⟩

/-- An alert about a room is only made up if there are enough names for it. -/
theorem membershipAlert_cases (verb : String) (id : RoomId) (actor : UserId) (room : Room) :
    membershipAlert verb id actor room = .error (.emptyRoom id) ∨
    membershipAlert verb id actor room = .error (.actorLeftRoom id actor) ∨
    ∃ names, Enough names room.members.length ∧ membershipAlert verb id actor room =
      pluralise (roomKey verb room.displayName.isSome) room.displayName names room.members.length := by
  by_cases hm : room.members = []
  · exact .inl ((Membership.membershipAlert_error verb id actor room).1 hm)
  cases hl : leadWith room.members actor with
  | none =>
    exact .inr (.inl ((Membership.membershipAlert_error verb id actor room).2 hm (leadWith_eq_none.1 hl)))
  | some ordered =>
    refine .inr (.inr ⟨ordered.map (·.name), ⟨List.length_pos_iff.2 hm, ?_⟩, ?_⟩)
    · rw [List.length_map, (leadWith_eq_some.1 hl).length]
      exact Nat.min_le_right ..
    · have he : ¬ room.members.isEmpty = true := by simpa using hm
      rw [membershipAlert, if_neg he, hl]

theorem reason_of_alert {verb : String} {id : RoomId} {actor : UserId} {room : Room}
    {cause : BuildError} (h : membershipAlert verb id actor room = .error cause) :
    cause = .emptyRoom id ∨ cause = .actorLeftRoom id actor := by
  rcases membershipAlert_cases verb id actor room with hm | hm | ⟨names, he, hm⟩
  · rw [hm] at h; cases h; exact .inl rfl
  · rw [hm] at h; cases h; exact .inr rfl
  · obtain ⟨alert, ha⟩ := he.alert (roomKey verb room.displayName.isSome) room.displayName
    rw [hm, ha] at h
    cases h

/-- An alert that recommends accounts is only made up if there are some, and all of them have names. -/
theorem recommendation_cases (user : UserId) (accounts : List (UserId × String)) :
    accounts = [] ∧ recommendation user accounts =
      .error (.nothingToBuild ("follow recommendations for user " ++ Decimal.ofId user)) ∨
    Enough (accounts.map (·.2)) accounts.length ∧ ∃ alert arguments,
      pluralise "follow_recommendations_with" none (accounts.map (·.2)) accounts.length = .ok alert ∧
      recommendation user accounts = .ok (alert, arguments) := by
  cases accounts with
  | nil => exact .inl ⟨rfl, rfl⟩
  | cons account accounts =>
    have he : Enough ((account :: accounts).map (·.2)) (account :: accounts).length :=
      ⟨Nat.succ_pos _, by rw [List.length_map]; exact Nat.min_le_right ..⟩
    have hok : recommendation user (account :: accounts) = _ :=
      Recommendation.recommendation_ok (List.cons_ne_nil account accounts)
    exact .inr ⟨he, _, _, pluralise_ok he.1 he.2, hok⟩

/-! ## Events -/

/-- Why nothing is built for an event, if a lookup does not fail. -/
def Event.reasons : Event → List BuildError
  | .newFollower follower _ => [.unknownUser follower]
  | .roomCreation room actor visibility | .roomJoin room actor visibility =>
    if visibility = .private then [.privateRoom room]
    else [.unknownRoom room, .emptyRoom room, .actorLeftRoom room actor]
  | .roomInvite room host _ => [.unknownUser host, .unknownRoom room]
  | .welcomeRoom user _ => [.unknownUser user]
  | .followRecommendations user _ =>
    [.nothingToBuild ("follow recommendations for user " ++ Decimal.ofId user)]

/-- Why nothing is built for an event. -/
def Event.Reason (e : Event) (cause : BuildError) : Prop :=
  cause ∈ e.reasons ∨ ∃ why, cause = .lookup why

/-- Somebody opens a room, or comes into it. -/
def EventKind.isEntry : EventKind → Bool
  | .roomCreation | .roomJoin => true
  | _ => false

/-- Reasons that would be defects: what is there does not fit together. -/
def BuildError.isDefect : BuildError → Bool
  | .notEnoughMembers .. | .unexpectedEvent .. => true
  | _ => false

theorem Event.Reason.not_isDefect {e : Event} {cause : BuildError} (h : e.Reason cause) :
    cause.isDefect = false := by
  rcases h with h | ⟨why, rfl⟩
  · have hall : e.reasons.all (!·.isDefect) = true := by
      cases e with
      | roomCreation _ _ visibility | roomJoin _ _ visibility => cases visibility <;> rfl
      | _ => rfl
    simpa using List.all_eq_true.1 hall cause h
  · rfl

namespace Registry

theorem reason_of_lookup {e : Event} {absent : BuildError} {x : ExceptT BuildError Timed α}
    (h : FailsOnly (fun cause => cause = absent ∨ ∃ why, cause = .lookup why) x)
    (ha : absent ∈ e.reasons) : FailsOnly e.Reason x :=
  h.mono fun cause hc => hc.imp_left fun (he : cause = absent) => he ▸ ha

/-- A builder for one kind of entries into rooms knows those of the other kind, too. -/
theorem reason_of_membership {verb : String} {category : Category} {e : Event}
    (h : e.kind = .roomCreation ∨ e.kind = .roomJoin) :
    FailsOnly e.Reason (membership ⟨directories, limit⟩ verb category e) := by
  cases e with
  | roomCreation id actor visibility | roomJoin id actor visibility =>
    cases visibility with
    | «private» => exact .throw (.inl (by simp [Event.reasons]))
    | «public» =>
      refine .bind (reason_of_lookup .ask (by simp [Event.reasons])) fun room _ =>
        .bind (.mk fun cause h => ?_) fun _ _ => .pure _
      rcases reason_of_alert h with rfl | rfl <;> exact .inl (by simp [Event.reasons])
  | _ => rcases h with h | h <;> cases h

/-- Nothing is built for no other reasons than those of the event. -/
theorem reason_of_build (e : Event) : FailsOnly e.Reason ((standard directories limit).build e) := by
  cases e with
  | newFollower follower followee =>
    exact .bind (reason_of_lookup .ask (by simp [Event.reasons])) fun _ _ => .pure _
  | welcomeRoom user id =>
    exact .bind (reason_of_lookup .ask (by simp [Event.reasons])) fun _ _ => .pure _
  | roomCreation id actor visibility => exact reason_of_membership (.inl rfl)
  | roomJoin id actor visibility => exact reason_of_membership (.inr rfl)
  | roomInvite id host guest =>
    refine .bind (.lift _) fun found hf => ?_
    cases hf
    refine .bind (.mk ?_) fun _ _ => .bind (.mk ?_) fun _ _ => .pure _
    · exact reason_of_lookup (x := Lookups.name ⟨directories, limit⟩ 0 host) .ask
        (by simp [Event.reasons])
    · exact reason_of_lookup (x := Lookups.room ⟨directories, limit⟩ id) .ask
        (by simp [Event.reasons])
  | followRecommendations user accounts =>
    intro cause h
    rw [Recommendation.value_build_scan] at h
    unfold Recommendation.conclude at h
    split at h <;> cases h
    · exact .inr ⟨_, rfl⟩
    · exact .inl (by simp [Event.reasons])

/-! ## Registries -/

/-- Every builder knows the events of the kind for which it is registered. -/
def Fitting (r : Registry) : Prop :=
  ∀ e b, r e.kind = some b → ∀ kind, (b e).run.value ≠ .error (.unexpectedEvent kind)

theorem fitting_standard : (standard directories limit).Fitting := by
  intro e b hb kind h
  have hbuild : (standard directories limit).build e = b e := by rw [build, hb]
  exact absurd (reason_of_build e _ (hbuild ▸ h)).not_isDefect (by simp [BuildError.isDefect])

theorem build_of_none {r : Registry} {e : Event} (h : r e.kind = none) :
    r.build e = throw (unexpected e) := by
  rw [build, h]

/-- An event is unexpected if there is no builder for its kind. -/
theorem unexpected_iff {r : Registry} (hr : r.Fitting) {e : Event} :
    (∃ kind, (r.build e).run.value = .error (.unexpectedEvent kind)) ↔ r e.kind = none := by
  constructor
  · rintro ⟨kind, h⟩
    cases hb : r e.kind with
    | none => rfl
    | some b =>
      rw [build, hb] at h
      exact absurd h (hr e b hb kind)
  · intro h
    exact ⟨e.kind.name, by rw [build_of_none h]; rfl⟩

/-- Builders are registered for some kinds, one after the other. -/
def registerAll (b : EventKind → Builder) (kinds : List EventKind) : Registry :=
  kinds.foldl (fun r kind => r.register kind (b kind)) empty

theorem registerAll_eq (b : EventKind → Builder) (kinds : List EventKind) (kind : EventKind) :
    registerAll b kinds kind = if kind ∈ kinds then some (b kind) else none := by
  suffices h : ∀ r : Registry, kinds.foldl (fun r kind => r.register kind (b kind)) r kind =
      if kind ∈ kinds then some (b kind) else r kind from h empty
  induction kinds with
  | nil => exact fun r => rfl
  | cons k kinds ih =>
    intro r
    rw [List.foldl_cons, ih]
    by_cases hk : kind = k
    · subst hk
      simp [register]
    · simp [register, hk]

/-- The builder that the standard registry has for events of a kind. -/
def builderFor (directories : Directories) (limit : Limit) (kind : EventKind) : Builder :=
  (standard directories limit kind).getD fun e => throw (unexpected e)

theorem standard_eq (kind : EventKind) :
    standard directories limit kind = some (builderFor directories limit kind) := by
  cases kind <;> rfl

/-- A builder does not know events of other kinds, but for the two builders of entries into rooms, which
know each other's. -/
theorem builderFor_unexpected_iff {kind : EventKind} {e : Event} :
    (∃ name, (builderFor directories limit kind e).run.value = .error (.unexpectedEvent name)) ↔
      ¬ (kind = e.kind ∨ kind.isEntry = true ∧ e.kind.isEntry = true) := by
  constructor
  · rintro ⟨name, h⟩ (rfl | ⟨hk, he⟩)
    · exact fitting_standard e _ (standard_eq e.kind) name h
    · have hr : e.Reason (.unexpectedEvent name) := by
        have he : e.kind = .roomCreation ∨ e.kind = .roomJoin := by
          cases hek : e.kind <;> simp_all [EventKind.isEntry]
        cases kind with
        | roomCreation | roomJoin => exact reason_of_membership he _ h
        | _ => cases hk
      exact absurd hr.not_isDefect (by simp [BuildError.isDefect])
  · intro hn
    cases kind with
    | newFollower =>
      cases e with
      | newFollower => exact absurd (.inl rfl) hn
      | _ => exact ⟨_, rfl⟩
    | roomCreation | roomJoin =>
      cases e with
      | roomCreation | roomJoin => exact absurd (.inr ⟨rfl, rfl⟩) hn
      | _ => exact ⟨_, rfl⟩
    | roomInvite =>
      cases e with
      | roomInvite => exact absurd (.inl rfl) hn
      | _ => exact ⟨_, rfl⟩
    | welcomeRoom =>
      cases e with
      | welcomeRoom => exact absurd (.inl rfl) hn
      | _ => exact ⟨_, rfl⟩
    | followRecommendations =>
      cases e with
      | followRecommendations => exact absurd (.inl rfl) hn
      | _ => exact ⟨_, rfl⟩

/-- Who comes into a room is why it is announced. -/
theorem origin_of_membership {verb : String} {category : Category} {e : Event} {n : Notification}
    (he : e.kind.isEntry = true)
    (h : (membership ⟨directories, limit⟩ verb category e).run.value = .ok n) :
    n.origin = some e.origin := by
  cases e with
  | roomCreation id actor visibility | roomJoin id actor visibility =>
    cases visibility with
    | «private» => cases h
    | «public» =>
      obtain ⟨room, -, h⟩ := Timed.value_bind_ok h
      obtain ⟨alert, -, h⟩ := Timed.value_bind_ok h
      cases Timed.value_pure_ok h
      rfl
  | _ => cases he

/-- Whatever event a builder is given, the notification is the doing of the one whose doing the event
is. -/
theorem origin_of_builder {kind : EventKind} {e : Event} {n : Notification}
    (h : (builderFor directories limit kind e).run.value = .ok n) : n.origin = some e.origin := by
  by_cases hk : kind = e.kind ∨ kind.isEntry = true ∧ e.kind.isEntry = true
  · rcases hk with rfl | ⟨hk, he⟩
    · cases e with
      | newFollower | welcomeRoom =>
        obtain ⟨name, -, h⟩ := Timed.value_bind_ok h
        cases Timed.value_pure_ok h
        rfl
      | roomCreation | roomJoin => exact origin_of_membership rfl h
      | roomInvite =>
        obtain ⟨found, -, h⟩ := Timed.value_bind_ok h
        obtain ⟨name, -, h⟩ := Timed.value_bind_ok h
        obtain ⟨room, -, h⟩ := Timed.value_bind_ok h
        cases Timed.value_pure_ok h
        rfl
      | followRecommendations =>
        obtain ⟨names, -, h⟩ := Timed.value_bind_ok h
        obtain ⟨accounts, -, h⟩ := Timed.value_bind_ok h
        obtain ⟨⟨alert, arguments⟩, -, h⟩ := Timed.value_bind_ok h
        cases Timed.value_pure_ok h
        rfl
    · cases kind with
      | roomCreation | roomJoin => exact origin_of_membership he h
      | _ => cases hk
  · -- The builder does not know the event.
    obtain ⟨name, hn⟩ := builderFor_unexpected_iff.2 hk
    rw [hn] at h
    cases h

/-- The notification for an event is the doing of the one whose doing the event is. -/
theorem origin_of_build {e : Event} {n : Notification}
    (h : ((standard directories limit).build e).run.value = .ok n) : n.origin = some e.origin := by
  rw [build, standard_eq] at h
  exact origin_of_builder h

/-- Whatever the directories say of users and rooms, and whenever they say it, an alert is never short of
names, and no event is unexpected. An alert is only made up for somebody, and with as many names as it
shows. For each kind there is a builder, and it knows the events of this kind; it knows no others,
except that who knows how to announce one kind of entries into rooms knows the other kind.

In a registry whose builders know the events of their kinds, the unexpected events are those for whose
kind there is no builder. So if some of the standard builders are registered, exactly the events of
the other kinds are unexpected, and nobody is asked anything for them. -/
theorem never_unexpected (directories : Directories) (limit : Limit) :
    (∀ e expected found, ((standard directories limit).build e).run.value ≠
      .error (.notEnoughMembers expected found)) ∧
    (∀ e kind, ((standard directories limit).build e).run.value ≠ .error (.unexpectedEvent kind)) ∧
    (∀ verb id actor room,
      membershipAlert verb id actor room = .error (.emptyRoom id) ∨
      membershipAlert verb id actor room = .error (.actorLeftRoom id actor) ∨
      ∃ names, Enough names room.members.length ∧ membershipAlert verb id actor room =
        pluralise (roomKey verb room.displayName.isSome) room.displayName names room.members.length) ∧
    (∀ user accounts,
      accounts = [] ∧ recommendation user accounts =
        .error (.nothingToBuild ("follow recommendations for user " ++ Decimal.ofId user)) ∨
      Enough (accounts.map (·.2)) accounts.length ∧ ∃ alert arguments,
        pluralise "follow_recommendations_with" none (accounts.map (·.2)) accounts.length = .ok alert ∧
        recommendation user accounts = .ok (alert, arguments)) ∧
    (∀ kind, standard directories limit kind = some (builderFor directories limit kind) ∧
      ∀ e : Event, (∃ name, (builderFor directories limit kind e).run.value =
          .error (.unexpectedEvent name)) ↔
        ¬ (kind = e.kind ∨ kind.isEntry = true ∧ e.kind.isEntry = true)) ∧
    (∀ r : Registry, r.Fitting → ∀ e,
      (∃ kind, (r.build e).run.value = .error (.unexpectedEvent kind)) ↔ r e.kind = none) ∧
    ∀ kinds e,
      ((∃ kind, ((registerAll (builderFor directories limit) kinds).build e).run.value =
        .error (.unexpectedEvent kind)) ↔ e.kind ∉ kinds) ∧
      (e.kind ∉ kinds → (registerAll (builderFor directories limit) kinds).build e =
        throw (.unexpectedEvent e.kind.name)) ∧
      (e.kind ∈ kinds → (registerAll (builderFor directories limit) kinds).build e =
        (standard directories limit).build e) := by
  refine ⟨fun e expected found h => ?_, fun e kind h => ?_, membershipAlert_cases,
    recommendation_cases, fun kind => ⟨standard_eq kind, fun e => builderFor_unexpected_iff⟩,
    fun r hr e => unexpected_iff hr, fun kinds e => ?_⟩
  · exact absurd (reason_of_build e _ h).not_isDefect (by simp [BuildError.isDefect])
  · exact absurd (reason_of_build e _ h).not_isDefect (by simp [BuildError.isDefect])
  · have hget := registerAll_eq (builderFor directories limit) kinds e.kind
    have hfit : (registerAll (builderFor directories limit) kinds).Fitting := by
      intro e b hb
      rw [registerAll_eq, ← standard_eq] at hb
      split at hb
      · exact fitting_standard e b hb
      · cases hb
    refine ⟨?_, fun hk => ?_, fun hk => ?_⟩
    · rw [unexpected_iff hfit, hget]
      simp
    · rw [if_neg hk] at hget
      exact build_of_none hget
    · rw [if_pos hk] at hget
      rw [build, build, hget, standard_eq]

/-- Only entries into rooms are announced, and always in the same words. -/
def plainEntries : Registry :=
  empty.register .roomJoin fun _ => pure ⟨.roomJoined, ⟨"somebody", []⟩, ∅, none, none⟩

/-- With a builder for entries alone, be it this one or the standard one, new followers are unexpected. -/
theorem never_unexpected_entriesOnly :
    plainEntries.Fitting ∧
    (∃ kind, (plainEntries.build (.newFollower 1 2)).run.value = .error (.unexpectedEvent kind)) ∧
    (registerAll (builderFor Membership.crowded (.ofMillis 9)) [.roomJoin]).build (.newFollower 1 2) =
      throw (.unexpectedEvent "new_follower") ∧
    (registerAll (builderFor Membership.crowded (.ofMillis 9)) [.roomJoin]).build
        (.roomJoin "a" 2 .public) =
      (standard Membership.crowded (.ofMillis 9)).build (.roomJoin "a" 2 .public) := by
  obtain ⟨-, -, -, -, -, fitting, registered⟩ := never_unexpected Membership.crowded (.ofMillis 9)
  have hfit : plainEntries.Fitting := by
    intro e b hb kind h
    unfold plainEntries register at hb
    split at hb
    · cases hb; cases h
    · cases hb
  exact ⟨hfit, (fitting _ hfit (.newFollower 1 2)).2 rfl,
    (registered [.roomJoin] (.newFollower 1 2)).2.1 (by decide),
    (registered [.roomJoin] (.roomJoin "a" 2 .public)).2.2 (by decide)⟩

end Registry

end Herald
