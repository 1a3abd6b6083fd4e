import Herald.Proofs.Lookups
import Herald.Proofs.Welcome

/-!
# Who the recipients of an event are

The recipients of an event are found by lookups of preferences. A lookup ends with an answer, or there is
no row, or it fails.

* `lookups`: the lookups made for an event, in order; `calls_resolve` says that these are its calls.
* `resolve_eq_error`: there are no recipients exactly if one of them fails, and the first one is blamed.
* `resolve_filled`: a missing row counts as a row of default preferences, and a missing list as an empty one.
* `recipients_exact`: if none fails, the recipients are those of the audience who did not opt out.
-/

namespace Herald

variable {ε α β : Type}

/-! ## Computations that may fail -/

namespace Timed

/-- The calls of a computation whose first part may fail. -/
theorem calls_run_bind (x : ExceptT ε Timed α) (f : α → ExceptT ε Timed β) :
    (x >>= f).run.calls = x.run.calls ++ match x.run.value with
      | .ok a => (f a).run.calls
      | .error _ => [] := by
  have hb : (x >>= f).run = x.run >>= fun
      | .ok a => (f a).run
      | .error cause => pure (.error cause) := rfl
  rw [hb, calls_bind]
  cases x.run.value <;> rfl

theorem calls_run_map (x : ExceptT ε Timed α) (f : α → β) :
    (x >>= fun a => pure (f a)).run.calls = x.run.calls := by
  rw [calls_run_bind]
  cases x.run.value <;> exact List.append_nil _

/-- The calls of a computation whose first part cannot fail. -/
theorem calls_lift_bind (t : Timed α) (f : α → ExceptT ε Timed β) :
    (ExceptT.lift t >>= f).run.calls = t.calls ++ (f t.value).run.calls := by
  rw [calls_run_bind]
  exact congrArg (· ++ (f t.value).run.calls) (List.append_nil t.calls)

theorem value_run_map (x : ExceptT ε Timed α) (f : α → β) :
    (x >>= fun a => pure (f a)).run.value = x.run.value.map f := by
  rw [value_run_bind]
  cases x.run.value <;> rfl

end Timed

/-! ## Stores -/

namespace Reply

/-- The reply of a store that has a row everywhere. -/
def filled (absent : α) (reply : Reply StoreError α) : Reply StoreError α where
  delay := reply.delay
  answer := match reply.answer with
    | .error .notFound => .ok absent
    | answer => answer

/-- What a store says, whenever it does; `absent` if it says nothing. -/
def rows (absent : α) (reply : Reply StoreError α) : α :=
  match reply.answer with
  | .ok a => a
  | .error _ => absent

end Reply

namespace SettingsStore

/-- The store with default preferences for every user without a row, and an empty list for every list that
is missing. -/
def filled (store : SettingsStore) : SettingsStore where
  user position id := (store.user position id).filled (.withDefaults id)
  followers id := (store.followers id).filled []
  activeUsers limit := (store.activeUsers limit).filled []

/-- A lookup of a user is answered by a row of this user. -/
def Own (store : SettingsStore) : Prop :=
  ∀ position id row, (store.user position id).answer = .ok row → row.user = id

end SettingsStore

/-- The user who is to be welcomed. -/
def Event.newcomer? : Event → Option UserId
  | .welcomeRoom newcomer _ => some newcomer
  | _ => none

namespace Resolver

open Timed

variable {r : Resolver} {e : Event} {limit : Limit} {operation : String} {absent : α}
  {reply : Reply StoreError α} {call : Call} {blame : Failure → ResolutionError}
  {cause : ResolutionError} {targets : List Recipient}

/-! ## Lookups -/

/-- How a lookup ends. -/
inductive Ending where
  | answered
  /-- There is no row. -/
  | missing
  | failed (cause : Failure)
deriving DecidableEq

/-- A lookup that is made for an event. -/
structure Lookup where
  call : Call
  ending : Ending
  /-- What comes of the event if the lookup fails. -/
  error : Failure → ResolutionError

namespace Lookup

/-- A lookup ends with what the store says if that comes in time, and with a timeout otherwise. -/
def of (limit : Limit) (operation : String) (call : Call) (error : Failure → ResolutionError)
    (reply : Reply StoreError α) : Lookup where
  call := call
  ending :=
    if reply.delay ≤ limit.expiry then
      match reply.answer with
      | .ok _ => .answered
      | .error .notFound => .missing
      | .error (.failed cause) => .failed cause
    else .failed (.timedOut operation limit)
  error := error

/-- What comes of the event, as far as the lookup goes. -/
def check (l : Lookup) : Except ResolutionError Unit :=
  match l.ending with
  | .failed cause => .error (l.error cause)
  | .answered | .missing => .ok ()

theorem check_eq_error {l : Lookup} :
    l.check = .error cause ↔ ∃ failure, l.ending = .failed failure ∧ l.error failure = cause := by
  unfold check
  cases l.ending <;> simp

/-- A lookup stops an event if what it comes to is a failure. -/
theorem check_of : (of limit operation call blame reply).check =
    ((found limit operation absent reply).mapError blame).map fun _ => () := by
  unfold check of found
  by_cases h : reply.delay ≤ limit.expiry
  · simp only [if_pos h]
    rcases reply.answer with (_ | cause) | a <;> rfl
  · simp only [if_neg h]
    rfl

end Lookup

/-- The lookup of the preferences of the user at a position of a list. -/
def settingsLookup (r : Resolver) (p : UserId × Nat) : Lookup :=
  .of r.limit "settings lookup" (.settings p.1) (.settings p.1) (r.settings.user p.2 p.1)

def followersLookup (r : Resolver) (id : UserId) : Lookup :=
  .of r.limit "follower settings lookup" (.followers id) (.followers id) (r.settings.followers id)

def activeLookup (r : Resolver) : Lookup :=
  .of r.limit "active user lookup" (.activeUsers r.recentLimit) .activeUsers
    (r.settings.activeUsers r.recentLimit)

/-- The lookups for an event, in order. Greeters are looked up once it is known who was active. -/
def lookups (r : Resolver) : Event → List Lookup
  | .newFollower _ user | .roomInvite _ _ user | .followRecommendations user _ =>
    [r.settingsLookup (user, 0)]
  | .roomCreation _ member _ | .roomJoin _ member _ => [r.followersLookup member]
  | .welcomeRoom .. => r.activeLookup :: match r.activeLookup.check with
    | .ok () => r.greeters.zipIdx.map r.settingsLookup
    | .error _ => []

/-- The followers of a user, with their preferences. -/
def followersOf (r : Resolver) (id : UserId) : Except Failure (List Recipient) :=
  found r.limit "follower settings lookup" [] (r.settings.followers id)

theorem value_followers (id : UserId) :
    (r.followers id).run.value = (r.followersOf id).mapError (.followers id) :=
  orAbsent_within

theorem check_settingsLookup (p : UserId × Nat) :
    (r.settingsLookup p).check = ((r.preferences p).mapError (.settings p.1)).map fun _ => () :=
  Lookup.check_of

theorem check_followersLookup (id : UserId) :
    (r.followersLookup id).check = ((r.followersOf id).mapError (.followers id)).map fun _ => () :=
  Lookup.check_of

theorem check_activeLookup :
    r.activeLookup.check = (r.recentlyActive.mapError .activeUsers).map fun _ => () :=
  Lookup.check_of

theorem calls_user (p : UserId × Nat) : (r.user p.2 p.1).run.calls = [(r.settingsLookup p).call] := rfl

theorem calls_activeUsers : r.activeUsers.run.calls = [r.activeLookup.call] := rfl

theorem calls_greeterLookups :
    (all r.greeterLookups).calls = (r.greeters.zipIdx.map r.settingsLookup).map (·.call) := by
  rw [calls_all, greeterLookups, List.flatMap_map, List.map_map]
  simp only [calls_user]
  exact List.flatMap_pure_eq_map ..

/-- Nobody is asked about the greeters if it cannot be found out who was active. -/
theorem calls_welcomers (newcomer : UserId) (room : RoomId) :
    (r.welcomers newcomer).run.calls = (r.lookups (.welcomeRoom newcomer room)).map (·.call) := by
  rw [welcomers, calls_run_bind, value_activeUsers, lookups, check_activeLookup, List.map_cons,
    calls_activeUsers]
  refine congrArg (r.activeLookup.call :: ·) ?_
  cases r.recentlyActive with
  | error cause => rfl
  | ok active =>
    show (ExceptT.lift (all r.greeterLookups) >>= _).run.calls = _
    rw [calls_lift_bind, calls_greeterLookups, calls_run_map]
    exact List.append_nil _

/-- The calls made for an event are its lookups. -/
theorem calls_resolve : (r.resolve e).run.calls = (r.lookups e).map (·.call) := by
  cases e with
  | newFollower | roomInvite | followRecommendations => exact calls_run_map (r.user 0 _) _
  | roomCreation | roomJoin => exact calls_run_map (r.followers _) _
  | welcomeRoom newcomer room => exact (calls_run_map (r.welcomers _) _).trans (calls_welcomers ..)

/-! ## Failures -/

section

variable {f : α → Except ε β} {as : List α} {a : α} {c : ε}

theorem map_eq_error {γ : Type} {x : Except ε β} {g : β → γ} : x.map g = .error c ↔ x = .error c := by
  cases x <;> simp [Except.map]

theorem failsFirst_singleton : FailsFirst f [a] c ↔ f a = .error c := by
  rw [← mapM_eq_error, List.mapM_cons]
  cases f a <;> simp [bind, Except.bind, pure, Except.pure]

theorem failsFirst_map_left {γ : Type} {g : γ → α} {cs : List γ} :
    FailsFirst f (cs.map g) c ↔ FailsFirst (fun x => f (g x)) cs c := by
  rw [← mapM_eq_error, ← mapM_eq_error, List.mapM_map]
  rfl

/-- Which member of a list is the first to fail does not depend on what the others come to. -/
theorem failsFirst_map {γ : Type} {g : β → γ} :
    FailsFirst (fun x => (f x).map g) as c ↔ FailsFirst f as c := by
  have hok (x : α) : (∃ d, (f x).map g = .ok d) ↔ ∃ b, f x = .ok b := by
    cases f x <;> simp [Except.map]
  simp only [FailsFirst, map_eq_error, hok]

theorem exists_failsFirst : (∃ c, FailsFirst f as c) ↔ ∃ a ∈ as, ∃ c, f a = .error c := by
  induction as with
  | nil => simp [not_failsFirst_nil]
  | cons a as ih =>
    cases h : f a with
    | error c => simp [failsFirst_cons_of_error h, h]
    | ok b => simp [failsFirst_cons_of_ok h, h, ih]

end

theorem user_eq_error {id : UserId} {f : Recipient → List Recipient} :
    (r.user 0 id >>= fun u => pure (f u)).run.value = .error cause ↔
      FailsFirst Lookup.check [r.settingsLookup (id, 0)] cause := by
  rw [value_run_map, map_eq_error, value_user (id, 0), failsFirst_singleton, check_settingsLookup,
    map_eq_error]

theorem followers_eq_error {id : UserId} {f : List Recipient → List Recipient} :
    (r.followers id >>= fun us => pure (f us)).run.value = .error cause ↔
      FailsFirst Lookup.check [r.followersLookup id] cause := by
  rw [value_run_map, map_eq_error, value_followers, failsFirst_singleton, check_followersLookup,
    map_eq_error]

/-- With the active users at hand, a welcome fails as the lookups of the greeters do. -/
theorem welcome_eq_error {newcomer : UserId} {active : List Recipient} :
    r.welcome newcomer active (all r.greeterLookups).value = .error cause ↔
      FailsFirst Lookup.check (r.greeters.zipIdx.map r.settingsLookup) cause := by
  have hw : r.welcome newcomer active (all r.greeterLookups).value =
      ((all r.greeterLookups).value.mapM id).map fun greeters =>
        welcomed newcomer (r.latest active ++ greeters) := rfl
  rw [hw, map_eq_error, value_greeterLookups, mapM_eq_error, failsFirst_map_left, failsFirst_map_left]
  simp only [check_settingsLookup, id_eq]
  exact failsFirst_map.symm

/-- The recipients are not found if a lookup fails; the first one is blamed. -/
theorem resolve_eq_error :
    (r.resolve e).run.value = .error cause ↔ FailsFirst Lookup.check (r.lookups e) cause := by
  cases e with
  | newFollower | roomInvite | followRecommendations => exact user_eq_error
  | roomCreation | roomJoin => exact followers_eq_error
  | welcomeRoom newcomer room =>
    rw [value_resolve_welcome, lookups]
    have hc := r.check_activeLookup
    cases h : r.recentlyActive with
    | error failure =>
      rw [h] at hc
      rw [failsFirst_cons_of_error hc]
      exact ⟨Except.error.inj, congrArg _⟩
    | ok active =>
      rw [h] at hc
      rw [failsFirst_cons_of_ok hc, hc]
      exact welcome_eq_error

/-! ## Missing rows -/

/-- A lookup that finds no row comes to the same, in the same time, as one that finds `absent`. -/
theorem lookup_filled :
    (Timed.call limit operation call (reply.filled absent) >>= fun a => pure (orAbsent absent blame a)) =
      Timed.call limit operation call reply >>= fun a => pure (orAbsent absent blame a) := by
  by_cases h : reply.delay ≤ limit.expiry
  · have hf : (reply.filled absent).within limit operation = reply.filled absent := if_pos h
    have hr : reply.within limit operation = reply := if_pos h
    unfold Timed.call
    rw [hf, hr]
    rcases reply with ⟨delay, (_ | cause) | a⟩ <;> rfl
  · have hf : (reply.filled absent).within limit operation = reply.within limit operation :=
      (if_neg h).trans (if_neg h).symm
    unfold Timed.call
    rw [hf]

/-- The resolver of a store that has a row everywhere. -/
def filled (r : Resolver) : Resolver := { r with settings := r.settings.filled }

theorem user_filled (position : Nat) (id : UserId) : r.filled.user position id = r.user position id :=
  lookup_filled

theorem followers_filled (id : UserId) : r.filled.followers id = r.followers id := lookup_filled

theorem activeUsers_filled : r.filled.activeUsers = r.activeUsers := lookup_filled

/-- A missing row counts as default preferences, and a missing list as an empty one. -/
theorem resolve_filled : r.filled.resolve e = r.resolve e := by
  cases e with
  | newFollower | roomInvite | followRecommendations => simp only [resolve, user_filled]
  | roomCreation | roomJoin => simp only [resolve, followers_filled]
  | welcomeRoom newcomer room =>
    have hw : r.filled.welcomers newcomer = r.welcomers newcomer := by
      unfold welcomers
      simp only [activeUsers_filled, user_filled]
      rfl
    simp only [resolve, hw]

theorem ending_filled : (Lookup.of limit operation call blame (reply.filled absent)).ending ≠ .missing := by
  unfold Lookup.of Reply.filled
  dsimp only
  split
  · rcases reply.answer with (_ | cause) | a <;> exact nofun
  · exact nofun

/-- A store that has a row everywhere misses none. -/
theorem lookups_filled {l : Lookup} (h : l ∈ r.filled.lookups e) : l.ending ≠ .missing := by
  cases e with
  | newFollower | roomInvite | followRecommendations | roomCreation | roomJoin =>
    rw [List.mem_singleton.1 h]
    exact ending_filled
  | welcomeRoom newcomer room =>
    rcases List.mem_cons.1 h with rfl | h
    · exact ending_filled
    · cases hc : r.filled.activeLookup.check with
      | error cause => rw [hc] at h; cases h
      | ok _ =>
        rw [hc] at h
        obtain ⟨p, -, rfl⟩ := List.mem_map.1 h
        exact ending_filled

theorem isWanted_withDefaults (id : UserId) : e.isWanted (.withDefaults id) = true := by
  cases e <;> rfl

/-! ## The audience -/

/-- The preferences of the user at a position of a list, as the store says. -/
def rowOf (r : Resolver) (p : UserId × Nat) : Recipient :=
  (r.settings.user p.2 p.1).rows (.withDefaults p.1)

def greeterRows (r : Resolver) : List Recipient := r.greeters.zipIdx.map r.rowOf

def followerRows (r : Resolver) (id : UserId) : List Recipient := (r.settings.followers id).rows []

/-- The recently active users, as many as the settings allow. -/
def activeRows (r : Resolver) : List Recipient :=
  r.latest ((r.settings.activeUsers r.recentLimit).rows [])

/-- Those whom the store names for an event, with their preferences, in the order in which they are read.
A newcomer may be among those who are named for a welcome, and a user may be named twice. -/
def rows (r : Resolver) : Event → List Recipient
  | .newFollower _ user | .roomInvite _ _ user | .followRecommendations user _ => [r.rowOf (user, 0)]
  | .roomCreation _ member _ | .roomJoin _ member _ => r.followerRows member
  | .welcomeRoom .. => r.activeRows ++ r.greeterRows

/-- A user belongs to the audience of an event: the one whom it is about, the followers of the member of a
room, or those who may welcome a newcomer. -/
def Audience (r : Resolver) (user : UserId) : Event → Prop
  | .newFollower _ followee => user = followee
  | .roomCreation _ member _ | .roomJoin _ member _ => user ∈ (r.followerRows member).map (·.user)
  | .roomInvite _ _ guest => user = guest
  | .welcomeRoom newcomer _ => user ≠ newcomer ∧ (user ∈ r.activeRows.map (·.user) ∨ user ∈ r.greeters)
  | .followRecommendations recipient _ => user = recipient

theorem found_eq_ok {a : α} (h : found limit operation absent reply = .ok a) : a = reply.rows absent := by
  unfold found at h
  split at h
  · rcases reply with ⟨delay, (_ | cause) | b⟩ <;> cases h <;> rfl
  · cases h

theorem mapError_eq_ok {ε' : Type} {x : Except ε α} {g : ε → ε'} {a : α} (h : x.mapError g = .ok a) :
    x = .ok a := by
  cases x with
  | ok b => rw [Except.ok.inj h]
  | error cause => cases h

theorem user_eq_ok {p : UserId × Nat} {u : Recipient} (h : (r.user p.2 p.1).run.value = .ok u) :
    u = r.rowOf p :=
  found_eq_ok (mapError_eq_ok ((value_user p).symm.trans h))

theorem followers_eq_ok {id : UserId} {us : List Recipient} (h : (r.followers id).run.value = .ok us) :
    us = r.followerRows id :=
  found_eq_ok (mapError_eq_ok ((value_followers id).symm.trans h))

theorem greeterLookups_eq_ok {us : List Recipient}
    (h : (all r.greeterLookups).value.mapM id = .ok us) : us = r.greeterRows := by
  rw [value_greeterLookups, List.mapM_map] at h
  have hall := (mapM_eq_ok.1 h).imp fun p u hp => found_eq_ok (mapError_eq_ok hp)
  exact (List.forall₂_eq_eq_eq ▸ List.forall₂_map_left_iff.2 (hall.imp fun _ _ => Eq.symm)).symm

theorem welcome_eq_ok {newcomer : UserId} {active : List Recipient}
    (h : r.welcome newcomer active (all r.greeterLookups).value = .ok targets) :
    targets = welcomed newcomer (r.latest active ++ r.greeterRows) := by
  unfold welcome at h
  cases hg : (all r.greeterLookups).value.mapM id with
  | error cause =>
    rw [hg] at h
    cases h
  | ok greeters =>
    rw [hg] at h
    rw [← greeterLookups_eq_ok hg]
    exact (Except.ok.inj h).symm

/-! ## The recipients -/

/-- The recipients of an event, by those whom the store names. -/
def chosen (r : Resolver) : Event → List Recipient
  | .welcomeRoom newcomer room => welcomed newcomer (r.rows (.welcomeRoom newcomer room))
  | e => (r.rows e).filter (e.isWanted ·)

theorem resolve_eq_ok (h : (r.resolve e).run.value = .ok targets) : targets = r.chosen e := by
  cases e with
  | newFollower _ user =>
    obtain ⟨u, hu, h⟩ := value_bind_ok h
    rw [← value_pure_ok h, user_eq_ok (p := (user, 0)) hu]
    rfl
  | roomInvite _ _ user | followRecommendations user _ =>
    obtain ⟨u, hu, h⟩ := value_bind_ok h
    rw [← value_pure_ok h, user_eq_ok (p := (user, 0)) hu]
    rfl
  | roomCreation | roomJoin =>
    obtain ⟨us, hu, h⟩ := value_bind_ok h
    rw [← value_pure_ok h, followers_eq_ok hu]
    rfl
  | welcomeRoom newcomer room =>
    rw [value_resolve_welcome] at h
    cases ha : r.recentlyActive with
    | error cause =>
      rw [ha] at h
      cases h
    | ok active =>
      rw [ha] at h
      rw [welcome_eq_ok h, found_eq_ok ha]
      rfl

theorem user_rowOf (h : r.settings.Own) (p : UserId × Nat) : (r.rowOf p).user = p.1 := by
  unfold rowOf Reply.rows
  cases ha : (r.settings.user p.2 p.1).answer with
  | ok row => exact h _ _ _ ha
  | error cause => rfl

theorem map_user_greeterRows (h : r.settings.Own) : r.greeterRows.map (·.user) = r.greeters := by
  have hp : (r.greeters.zipIdx.map fun p => (r.rowOf p).user) = r.greeters.zipIdx.map Prod.fst :=
    List.map_congr_left fun p _ => user_rowOf h p
  rw [greeterRows, List.map_map]
  exact hp.trans (List.zipIdx_map_fst ..)

/-- Those whom the store names are the audience, but for a newcomer who is named. -/
theorem audience_iff (h : r.settings.Own) {user : UserId} :
    r.Audience user e ↔ user ∈ (r.rows e).map (·.user) ∧ e.newcomer? ≠ some user := by
  cases e with
  | newFollower | roomInvite | followRecommendations =>
    simp [Audience, rows, Event.newcomer?, user_rowOf h]
  | roomCreation | roomJoin => simp [Audience, rows, Event.newcomer?]
  | welcomeRoom newcomer room =>
    rw [Audience, rows, List.map_append, List.mem_append, map_user_greeterRows h, and_comm]
    simp [Event.newcomer?, eq_comm]

theorem mem_chosen {u : Recipient} (h : u ∈ r.chosen e) :
    u ∈ r.rows e ∧ e.isWanted u = true ∧ e.newcomer? ≠ some u.user := by
  cases e with
  | welcomeRoom newcomer room =>
    obtain ⟨hn, hf, hw⟩ := mem_welcomed.1 h
    exact ⟨List.mem_of_find?_eq_some hf, hw, fun he => hn (Option.some.inj he).symm⟩
  | _ =>
    obtain ⟨hm, hw⟩ := List.mem_filter.1 h
    exact ⟨hm, hw, nofun⟩

/-- The first row of a user is enough for the user to be chosen. -/
theorem mem_chosen_of_find {u : Recipient} (hf : (r.rows e).find? (·.user = u.user) = some u)
    (hw : e.isWanted u = true) (hn : e.newcomer? ≠ some u.user) : u ∈ r.chosen e := by
  cases e with
  | welcomeRoom newcomer room => exact mem_welcomed.2 ⟨fun he => hn (congrArg some he.symm), hf, hw⟩
  | _ => exact List.mem_filter.2 ⟨List.mem_of_find?_eq_some hf, hw⟩

/-- The store has a first row for everybody whom it names. -/
theorem exists_find {rows : List Recipient} {user : UserId} (h : user ∈ rows.map (·.user)) :
    ∃ u, u.user = user ∧ rows.find? (·.user = user) = some u := by
  cases hf : rows.find? (·.user = user) with
  | some u => exact ⟨u, by simpa using List.find?_some hf, rfl⟩
  | none =>
    obtain ⟨u, hu, he⟩ := List.mem_map.1 h
    exact absurd (decide_eq_true he) (List.find?_eq_none.1 hf u hu)

/-- Recipients are those of the audience of an event who have not opted out. -/
structure Exact (r : Resolver) (e : Event) (targets : List Recipient) : Prop where
  /-- Every recipient stands in the store, wants to hear about the event and belongs to its audience. -/
  sound : ∀ u ∈ targets, u ∈ r.rows e ∧ e.isWanted u = true ∧ r.Audience u.user e
  /-- The store names everybody of the audience. Whoever has not opted out there is a recipient. -/
  complete : ∀ user, r.Audience user e → ∃ u, u.user = user ∧
    (r.rows e).find? (·.user = user) = some u ∧ (e.isWanted u = true → u ∈ targets)
  /-- But for a welcome, those who have not opted out are recipients as they stand in the store, in that
  order and as often. -/
  listed : e.newcomer? = none → targets = (r.rows e).filter (e.isWanted ·)
  /-- Nobody is asked twice to welcome a newcomer: the first row of a user decides. -/
  welcome : ∀ newcomer, e.newcomer? = some newcomer → (targets.map (·.user)).Nodup ∧
    targets.Sublist (r.rows e) ∧ ∀ u, u ∈ targets ↔
      u.user ≠ newcomer ∧ (r.rows e).find? (·.user = u.user) = some u ∧ e.isWanted u = true

theorem exact_chosen (h : r.settings.Own) : r.Exact e (r.chosen e) where
  sound u hu :=
    have ⟨hm, hw, hn⟩ := mem_chosen hu
    ⟨hm, hw, (audience_iff h).2 ⟨List.mem_map_of_mem hm, hn⟩⟩
  complete user hu := by
    obtain ⟨hm, hn⟩ := (audience_iff h).1 hu
    obtain ⟨u, rfl, hf⟩ := exists_find hm
    exact ⟨u, rfl, hf, fun hw => mem_chosen_of_find hf hw hn⟩
  listed hn := by
    cases e with
    | welcomeRoom => cases hn
    | _ => rfl
  welcome newcomer hn := by
    cases e with
    | welcomeRoom newcomer' room =>
      cases hn
      refine ⟨?_, welcomed_sublist, fun u => mem_welcomed⟩
      rw [chosen, ← filter_unseen]
      exact nodup_unseen.sublist (List.filter_sublist.map _)
    | _ => cases hn

/-- How the recipients of an event are found.

The calls made are the lookups for the event, and there are no recipients exactly if one of these fails or
is not over in time: the first one that does is blamed. That there is no row is not a failure. A store with
default preferences in place of every row that it lacks, and an empty list in place of every list, comes to
the same with the same calls in the same time, and nobody with default preferences is left out.

If no lookup fails and each is answered by a row of the user that it is about, the recipients are exactly
those of the audience who have not opted out. -/
theorem recipients_exact (r : Resolver) (e : Event) :
    (r.resolve e).run.calls = (r.lookups e).map (·.call) ∧
    ((∃ cause, (r.resolve e).run.value = .error cause) ↔
      ∃ l ∈ r.lookups e, ∃ cause, l.ending = .failed cause) ∧
    (∀ cause, (r.resolve e).run.value = .error cause ↔ FailsFirst Lookup.check (r.lookups e) cause) ∧
    r.filled.resolve e = r.resolve e ∧
    (∀ l ∈ r.filled.lookups e, l.ending ≠ .missing) ∧
    (∀ user, e.isWanted (.withDefaults user) = true) ∧
    (r.settings.Own → ∀ targets, (r.resolve e).run.value = .ok targets → r.Exact e targets) := by
  refine ⟨calls_resolve, ?_, fun _ => resolve_eq_error, resolve_filled, fun _ => lookups_filled,
    fun _ => isWanted_withDefaults _, fun h targets ht => ?_⟩
  · simp only [resolve_eq_error, exists_failsFirst, Lookup.check_eq_error]
    grind
  · rw [resolve_eq_ok ht]
    exact exact_chosen h

/-- User 1 has four followers, of whom one is listed twice and one does not want to hear about rooms. User 3
has no settings and no followers. Nobody hears in time what user 6 wants. -/
def salon (greeters : List UserId) : Resolver where
  settings :=
    { user := fun _ user =>
        if user = 3 then ⟨2, .error .notFound⟩
        else if user = 6 then ⟨11, .ok (.withDefaults user)⟩
        else .now ⟨user, .normal, false, user != 5⟩
      followers := fun user =>
        if user = 1 then .now [⟨2, .frequent, true, true⟩, ⟨4, .off, true, true⟩, ⟨2, .frequent, true, true⟩,
          ⟨5, .normal, false, true⟩]
        else ⟨3, .error .notFound⟩
      activeUsers := fun _ => .now [⟨4, .off, true, true⟩, ⟨5, .normal, false, false⟩, .withDefaults 9] }
  greeters := greeters
  recentLimit := 3
  limit := .ofMillis 10

theorem own_salon (greeters : List UserId) : (salon greeters).settings.Own := by
  intro position id row h
  simp only [salon, Reply.now] at h
  split at h
  · cases h
  · split at h <;> cases h <;> rfl

/-- Three followers of user 1 hear about a room, one of them twice, and no follower of user 3. User 3 hears
about a follower without settings, and user 4 does not. Users 4 and 3 welcome user 9, while user 5, who was
active, does not want to. No greeter does if user 6 is one of them. -/
theorem recipients_exact_salon :
    (salon []).Exact (.roomCreation "r" 1 .public)
      [⟨2, .frequent, true, true⟩, ⟨2, .frequent, true, true⟩, ⟨5, .normal, false, true⟩] ∧
    (salon []).Exact (.roomJoin "r" 3 .public) [] ∧
    (salon []).Exact (.newFollower 1 3) [.withDefaults 3] ∧
    (salon []).Exact (.newFollower 1 4) [] ∧
    (salon [9, 3, 5]).Exact (.welcomeRoom 9 "r") [⟨4, .off, true, true⟩, .withDefaults 3] ∧
    ∃ cause, ((salon [3, 6]).resolve (.welcomeRoom 9 "r")).run.value = .error cause := by
  have hexact (greeters : List UserId) (e : Event) (targets : List Recipient)
      (ht : ((salon greeters).resolve e).run.value = .ok targets) : (salon greeters).Exact e targets :=
    (recipients_exact (salon greeters) e).2.2.2.2.2.2 (own_salon greeters) targets ht
  refine ⟨hexact _ _ _ rfl, hexact _ _ _ rfl, hexact _ _ _ rfl, hexact _ _ _ rfl, hexact _ _ _ rfl, ?_⟩
  refine (recipients_exact (salon [3, 6]) (.welcomeRoom 9 "r")).2.1.2
    ⟨(salon [3, 6]).settingsLookup (6, 1), ?_, _, rfl⟩
  exact List.mem_cons_of_mem _ (List.mem_cons_of_mem _ (List.mem_cons_self ..))

end Resolver

end Herald
