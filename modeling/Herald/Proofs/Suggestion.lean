import Herald.Proofs.Lookups
import Herald.Proofs.Phrasing

/-!
# What is recommended

The accounts that a notification recommends are those that have a name. All names are looked up side
by side; what is made of the answers is what one comes to who goes through the accounts from left to
right and gives up at the first lookup that fails.

* `scan`: accounts from left to right; `scan_eq_ok`, `scan_eq_nil` and `scan_eq_error` say what it
  comes to.
* `value_build_scan`: what is built for recommended accounts.
* `value_build`: the notification, if all names are found out and there are some.
-/

namespace Herald.Recommendation

open Content Phrasing

variable {user : UserId} {accounts : List UserId} {directories : Directories} {limit : Limit}

/-! ## From left to right -/

section

variable {ε : Type} {name? : UserId × Nat → Except ε (Option String)}
  {positions : List (UserId × Nat)} {found : List (UserId × String)}

/-- Accounts are gone through from left to right: one without a name is passed over, and the first
lookup that fails is the end of it. -/
def scan (name? : UserId × Nat → Except ε (Option String)) (positions : List (UserId × Nat)) :
    Except ε (List (UserId × String)) :=
  positions.foldlM (fun found p => do
    match ← name? p with
    | some name => pure (found ++ [(p.1, name)])
    | none => pure found) []

/-- An account with its name, if it has one. -/
def withName (name? : UserId × Nat → Except ε (Option String)) (p : UserId × Nat) :
    Option (UserId × String) :=
  match name? p with
  | .ok (some name) => some (p.1, name)
  | _ => none

/-- What was found before stays in front. -/
theorem scan_from (found : List (UserId × String)) :
    positions.foldlM (fun found p => do
      match ← name? p with
      | some name => pure (found ++ [(p.1, name)])
      | none => pure found) found = (scan name? positions).map (found ++ ·) := by
  induction positions generalizing found with
  | nil => simp [scan, Except.map, pure, Except.pure]
  | cons p positions ih =>
    unfold scan
    rw [List.foldlM_cons, List.foldlM_cons]
    rcases name? p with cause | (_ | name)
    · rfl
    · exact ih found
    · refine (ih (found ++ [(p.1, name)])).trans ?_
      refine Eq.trans ?_ (congrArg (Except.map (found ++ ·)) (ih [(p.1, name)])).symm
      cases scan name? positions <;> simp [Except.map]

theorem scan_cons (p : UserId × Nat) : scan name? (p :: positions) =
    match name? p with
    | .ok (some name) => (scan name? positions).map ((p.1, name) :: ·)
    | .ok none => scan name? positions
    | .error cause => .error cause := by
  have hs : scan name? (p :: positions) = _ := List.foldlM_cons
  rw [hs]
  rcases name? p with cause | (_ | name)
  · rfl
  · rfl
  · exact scan_from [(p.1, name)]

/-- If no lookup fails, a scan comes to the accounts that have a name. -/
theorem scan_eq_ok : scan name? positions = .ok found ↔
    (∀ p ∈ positions, ∃ answer, name? p = .ok answer) ∧
      found = positions.filterMap (withName name?) := by
  induction positions generalizing found with
  | nil => exact ⟨fun h => ⟨nofun, (Except.ok.inj h).symm⟩, fun h => h.2 ▸ rfl⟩
  | cons p positions ih =>
    rw [scan_cons, List.forall_mem_cons, List.filterMap_cons]
    rcases h : name? p with cause | (_ | name)
    · simp
    · have he : withName name? p = none := by simp [withName, h]
      simpa [he] using ih
    · have he : withName name? p = some (p.1, name) := by simp [withName, h]
      simp only [he, Except.ok.injEq, exists_eq', true_and]
      constructor
      · intro hm
        cases hs : scan name? positions with
        | error cause => rw [hs] at hm; cases hm
        | ok rest =>
          rw [hs] at hm
          cases hm
          obtain ⟨ha, rfl⟩ := ih.1 hs
          exact ⟨ha, rfl⟩
      · rintro ⟨ha, rfl⟩
        rw [ih.2 ⟨ha, rfl⟩]
        rfl

theorem withName_eq_none {p : UserId × Nat} {answer : Option String} (h : name? p = .ok answer) :
    withName name? p = none ↔ answer = none := by
  unfold withName
  rw [h]
  cases answer <;> simp

/-- A scan comes to nobody if nobody has a name. -/
theorem scan_eq_nil : scan name? positions = .ok [] ↔ ∀ p ∈ positions, name? p = .ok none := by
  rw [scan_eq_ok]
  constructor
  · rintro ⟨answered, hf⟩ p hp
    obtain ⟨answer, ha⟩ := answered p hp
    have he := List.filterMap_eq_nil_iff.1 hf.symm p hp
    rw [ha, (withName_eq_none ha).1 he]
  · intro h
    refine ⟨fun p hp => ⟨none, h p hp⟩, (List.filterMap_eq_nil_iff.2 fun p hp => ?_).symm⟩
    exact (withName_eq_none (h p hp)).2 rfl

/-- A scan fails as the first lookup in the list does that fails. -/
theorem scan_eq_error {cause : ε} :
    scan name? positions = .error cause ↔ FailsFirst name? positions cause := by
  induction positions with
  | nil => exact iff_of_false nofun not_failsFirst_nil
  | cons p positions ih =>
    rw [scan_cons]
    rcases ha : name? p with c | (_ | name)
    · rw [failsFirst_cons_of_error ha]
      exact ⟨Except.error.inj, congrArg _⟩
    · rw [failsFirst_cons_of_ok ha]
      exact ih
    · rw [failsFirst_cons_of_ok ha, ← ih]
      cases scan name? positions <;> simp [Except.map]

end

/-! ## The notification -/

/-- A notification recommends accounts: it lists them all, names the first three and counts the others. -/
structure Recommends (n : Notification) (accounts : List (UserId × String)) : Prop where
  category : n.category = .followRecommendations
  ids : n.arguments.members = [("ids", .ofIds (accounts.map (·.1)))]
  names : n.alert.arguments = (accounts.map (·.2)).take (min 3 accounts.length) ++
    if accounts.length ≤ 3 then [] else [Decimal.ofNat (accounts.length - 3)]

/-- The notification that recommends accounts. -/
def suggestion (user : UserId) (accounts : List (UserId × String)) : Notification where
  category := .followRecommendations
  alert := ⟨"follow_recommendations_with" ++ "_" ++ sizeSuffix accounts.length,
    (accounts.map (·.2)).take (min 3 accounts.length) ++ unnamed accounts.length⟩
  arguments := Arguments.empty.set "ids" (.ofIds (accounts.map (·.1))) (Json.isCanonical_ofIds _)
  origin := some user

theorem recommendation_ok {accounts : List (UserId × String)} (h : accounts ≠ []) :
    recommendation user accounts =
      .ok ((suggestion user accounts).alert, (suggestion user accounts).arguments) := by
  have hlen : 0 < (accounts.map (·.2)).length := by
    rw [List.length_map]
    exact List.length_pos_iff.2 h
  have hp : pluralise "follow_recommendations_with" none (accounts.map (·.2))
      (accounts.map (·.2)).length = .ok (suggestion user accounts).alert := by
    rw [pluralise_ok hlen (Nat.min_le_right ..), List.length_map]
    rfl
  unfold recommendation
  rw [if_neg (by simpa using h)]
  simp only [hp]
  rfl

/-! ## What is made of the answers -/

/-- What the lookup of a name comes to: the answer, if it comes in time. -/
def nameOf (directories : Directories) (limit : Limit) (p : UserId × Nat) :
    Except Failure (Option String) :=
  if (directories.users p.2 p.1).delay ≤ limit.expiry then (directories.users p.2 p.1).answer
  else .error (.timedOut "display name lookup" limit)

theorem value_name (p : UserId × Nat) : (Lookups.name ⟨directories, limit⟩ p.2 p.1).run.value =
    match nameOf directories limit p with
    | .ok (some name) => .ok name
    | .ok none => .error (.unknownUser p.1)
    | .error cause => .error (.lookup cause) := by
  have ha : ((directories.users p.2 p.1).within limit "display name lookup").answer =
      nameOf directories limit p := by
    unfold Reply.within nameOf
    split <;> rfl
  rw [Lookups.name, Lookups.value_ask, ha]
  rcases nameOf directories limit p with cause | (_ | name) <;> rfl

theorem known_scan {positions : List (UserId × Nat)} :
    known (positions.map fun p => (p.1, (Lookups.name ⟨directories, limit⟩ p.2 p.1).run.value)) =
      (scan (nameOf directories limit) positions).mapError .lookup := by
  induction positions with
  | nil => rfl
  | cons p positions ih =>
    rw [List.map_cons, value_name, scan_cons]
    rcases nameOf directories limit p with cause | (_ | name)
    · rfl
    · exact ih
    · show (known _).map _ = _
      rw [ih]
      cases scan (nameOf directories limit) positions <;> rfl

/-- The lookups of the names of accounts. -/
def nameLookups (directories : Directories) (limit : Limit) (accounts : List UserId) :
    List (Timed (Except BuildError String)) :=
  accounts.zipIdx.map fun p => (Lookups.name ⟨directories, limit⟩ p.2 p.1).run

/-- What is made of the answers to the lookups, in the order of the accounts. -/
def suggest (user : UserId) (accounts : List UserId) (names : List (Except BuildError String)) :
    Except BuildError Notification := do
  let found ← known (accounts.zip names)
  let (alert, arguments) ← recommendation user found
  pure { category := .followRecommendations, alert, arguments, origin := some user }

/-- What is made of a scan. -/
def conclude (user : UserId) : Except Failure (List (UserId × String)) → Except BuildError Notification
  | .error cause => .error (.lookup cause)
  | .ok [] => .error (.nothingToBuild ("follow recommendations for user " ++ Decimal.ofId user))
  | .ok (account :: accounts) => .ok (suggestion user (account :: accounts))

section

variable {found : Except Failure (List (UserId × String))} {n : Notification}

theorem conclude_eq_lookup {cause : Failure} :
    conclude user found = .error (.lookup cause) ↔ found = .error cause := by
  rcases found with cause | (_ | ⟨account, accounts⟩) <;> simp [conclude]

theorem conclude_eq_nothing :
    (∃ subject, conclude user found = .error (.nothingToBuild subject)) ↔ found = .ok [] := by
  rcases found with cause | (_ | ⟨account, accounts⟩) <;> simp [conclude]

theorem conclude_eq_ok : conclude user found = .ok n ↔
    ∃ accounts, found = .ok accounts ∧ accounts ≠ [] ∧ n = suggestion user accounts := by
  rcases found with cause | (_ | ⟨account, accounts⟩) <;> simp [conclude, eq_comm]

end

theorem value_build_suggest :
    ((Registry.standard directories limit).build (.followRecommendations user accounts)).run.value =
      suggest user accounts (Timed.all (nameLookups directories limit accounts)).value := by
  let names := (Timed.all (nameLookups directories limit accounts)).value
  show Timed.value (ExceptT.mk (pure (known (accounts.zip names))) >>= _).run = _
  rw [Timed.value_mk_bind]
  refine congrArg (known (accounts.zip names) >>= ·) (funext fun found => ?_)
  show Timed.value (ExceptT.mk (pure (recommendation user found)) >>= _).run = _
  rw [Timed.value_mk_bind]
  rfl

/-- What is built for recommended accounts is what a scan of them comes to. -/
theorem value_build_scan :
    ((Registry.standard directories limit).build (.followRecommendations user accounts)).run.value =
      conclude user (scan (nameOf directories limit) accounts.zipIdx) := by
  rw [value_build_suggest, Timed.value_all, nameLookups, List.map_map]
  -- The lookups are made side by side, so the answers stand in the order of the accounts.
  have hzip (f : UserId × Nat → Except BuildError String) : accounts.zip (accounts.zipIdx.map f) =
      accounts.zipIdx.map fun p => (p.1, f p) := by
    have h : accounts.zipIdx.map Prod.fst = accounts := List.zipIdx_map_fst ..
    exact (congrArg (List.zip · _) h.symm).trans List.zip_map'
  unfold suggest
  rw [hzip, Function.comp_def, known_scan]
  cases scan (nameOf directories limit) accounts.zipIdx with
  | error cause => rfl
  | ok found =>
    cases found with
    | nil => rfl
    | cons account found =>
      show recommendation user (account :: found) >>= _ = _
      rw [recommendation_ok (by simp)]
      rfl

/-- The accounts that have a name, with their names, in order. -/
def named (directories : Directories) (accounts : List UserId) : List (UserId × String) :=
  accounts.zipIdx.filterMap fun p =>
    match (directories.users p.2 p.1).answer with
    | .ok (some name) => some (p.1, name)
    | _ => none

/-- The names of accounts are found out, or that there are none. -/
def Known (directories : Directories) (limit : Limit) (accounts : List UserId) : Prop :=
  ∀ p ∈ accounts.zipIdx, (directories.users p.2 p.1).delay ≤ limit.expiry ∧
    ∃ name?, (directories.users p.2 p.1).answer = .ok name?

theorem scan_of_known (h : Known directories limit accounts) :
    scan (nameOf directories limit) accounts.zipIdx = .ok (named directories accounts) := by
  have hname : ∀ p ∈ accounts.zipIdx,
      nameOf directories limit p = (directories.users p.2 p.1).answer := fun p hp => by
    rw [nameOf, if_pos (h p hp).1]
  refine scan_eq_ok.2 ⟨fun p hp => hname p hp ▸ (h p hp).2, List.filterMap_congr fun p hp => ?_⟩
  rw [withName, hname p hp]
  rcases (directories.users p.2 p.1).answer with cause | (_ | name) <;> rfl

/-- If the names are found out and there are some, the accounts that have one are recommended. -/
theorem value_build (hk : Known directories limit accounts) (hn : named directories accounts ≠ []) :
    ((Registry.standard directories limit).build (.followRecommendations user accounts)).run.value =
      .ok (suggestion user (named directories accounts)) := by
  rw [value_build_scan, scan_of_known hk]
  cases h : named directories accounts with
  | nil => exact absurd h hn
  | cons account rest => rfl

end Herald.Recommendation
