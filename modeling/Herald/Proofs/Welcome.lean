import Herald.Proofs.Audience
import Herald.Proofs.Join

/-!
# Who welcomes a newcomer

Recently active users hear about a newcomer, up to the limit of the settings, and after them the
greeters. A user may stand there more than once, with other preferences each time: the first row counts.

* `found`: what a lookup of preferences comes to.
* `welcomed`: those who hear about a newcomer, by what stands before each of them; `filter_unseen` says
  that it is what a walk comes to that remembers whom it has met.
* `welcomed_append`: greeters after recently active users.
* `welcome_targets`: whom the recipients of a welcome are, and when there are none.
-/

namespace Herald.Resolver

variable {α : Type} {r : Resolver} {u : Recipient} {rows recent greeters : List Recipient}
  {seen : List UserId} {newcomer : UserId} {room : RoomId}

/-! ## Each user once -/

/-- The user of the row at a position has not been seen, and stands in no row before it. -/
def isFirst (seen : List UserId) (rows : List Recipient) (p : Recipient × Nat) : Bool :=
  p.1.user ∉ seen ++ (rows.take p.2).map (·.user)

/-- Those who hear about a newcomer: the first row of every other user, if the user wants to. -/
def welcomed (newcomer : UserId) (rows : List Recipient) : List Recipient :=
  (rows.zipIdx.filter fun p => isFirst [newcomer] rows p && p.1.wantsWelcomes).map (·.1)

theorem isFirst_cons {v : Recipient} {p : Recipient × Nat} :
    isFirst seen (v :: rows) (p.1, p.2 + 1) = isFirst (v.user :: seen) rows p := by
  simp [isFirst, and_left_comm]

theorem isFirst_cons_seen {v : Recipient} (hv : v.user ∈ seen) {p : Recipient × Nat} :
    isFirst (v.user :: seen) rows p = isFirst seen rows p := by
  have hs : p.1.user ∉ seen → p.1.user ≠ v.user := fun hp he => hp (he ▸ hv)
  simp only [isFirst, List.cons_append, List.mem_cons, List.mem_append, not_or, decide_eq_decide]
  tauto

theorem isFirst_append {p : Recipient × Nat} :
    isFirst seen (recent ++ greeters) (p.1, recent.length + p.2) =
      (isFirst seen greeters p && decide (p.1.user ∉ recent.map (·.user))) := by
  rw [isFirst, isFirst, List.take_length_add_append, List.map_append, ← Bool.decide_and,
    decide_eq_decide]
  simp only [List.mem_append, not_or]
  tauto

/-- What a walk does not skip, by what stands before it. -/
theorem unseen_eq : unseen seen rows = (rows.zipIdx.filter (isFirst seen rows)).map (·.1) := by
  induction rows generalizing seen with
  | nil => rfl
  | cons v rows ih =>
    have hrest : ((rows.zipIdx 1).filter (isFirst seen (v :: rows))).map (·.1) =
        (rows.zipIdx.filter (isFirst (v.user :: seen) rows)).map (·.1) := by
      rw [List.zipIdx_succ, List.filter_map, List.map_map]
      exact congrArg (List.map _) (List.filter_congr fun p _ => isFirst_cons)
    rw [unseen, List.zipIdx_cons, List.filter_cons]
    by_cases hv : v.user ∈ seen
    · have hf : isFirst seen (v :: rows) (v, 0) = false := by simp [isFirst, hv]
      rw [if_pos hv, hf, if_neg Bool.false_ne_true, hrest, ih]
      exact congrArg (List.map _) (List.filter_congr fun p _ => (isFirst_cons_seen hv).symm)
    · have hf : isFirst seen (v :: rows) (v, 0) = true := by simp [isFirst, hv]
      rw [if_neg hv, hf, if_pos rfl, List.map_cons, hrest, ih]

/-- A walk that remembers whom it has met, and those it does not skip who want to hear. -/
theorem filter_unseen : (unseen [newcomer] rows).filter (·.wantsWelcomes) = welcomed newcomer rows := by
  rw [unseen_eq, List.filter_map, List.filter_filter, welcomed]
  exact congrArg (List.map _) (List.filter_congr fun p _ => Bool.and_comm ..)

/-- Greeters hear about a newcomer after those who were active, and if they were not. -/
theorem welcomed_append : welcomed newcomer (recent ++ greeters) = welcomed newcomer recent ++
    (welcomed newcomer greeters).filter fun u => u.user ∉ recent.map (·.user) := by
  unfold welcomed
  rw [List.zipIdx_append, List.filter_append, List.map_append, List.filter_map, List.filter_filter]
  congr 1
  · refine congrArg (List.map _) (List.filter_congr fun p hp => ?_)
    have hlt : p.2 < recent.length := (List.mem_zipIdx' hp).1
    rw [isFirst, isFirst, List.take_append_of_le_length (Nat.le_of_lt hlt)]
  · rw [Nat.zero_add, List.zipIdx_eq_map_add, List.filter_map, List.map_map]
    refine congrArg (List.map _) (List.filter_congr fun p _ => ?_)
    show (isFirst _ _ (p.1, recent.length + p.2) && _) = _
    rw [isFirst_append, Bool.and_right_comm, Bool.and_comm]
    rfl

theorem welcomed_sublist : (welcomed newcomer rows).Sublist rows := by
  have hs := (List.filter_sublist (l := rows.zipIdx)
    (p := fun p => isFirst [newcomer] rows p && p.1.wantsWelcomes)).map Prod.fst
  rwa [List.zipIdx_map_fst] at hs

theorem nodup_unseen : ((unseen seen rows).map (·.user)).Nodup := by
  induction rows generalizing seen with
  | nil => exact .nil
  | cons v rows ih =>
    unfold unseen
    split
    · exact ih
    · refine List.nodup_cons.2 ⟨fun hv => ?_, ih⟩
      obtain ⟨u, hu, he⟩ := List.mem_map.1 hv
      exact (mem_unseen hu).2 (he ▸ List.mem_cons_self ..)

/-- A walk does not skip the first row of a user whom it has not met, and no other. -/
theorem mem_unseen_iff :
    u ∈ unseen seen rows ↔ u.user ∉ seen ∧ rows.find? (·.user = u.user) = some u := by
  induction rows generalizing seen with
  | nil => simp [unseen]
  | cons v rows ih =>
    rw [unseen, List.find?_cons]
    by_cases hv : v.user ∈ seen <;> by_cases hu : v.user = u.user
    · simp [hu, ih, hu ▸ hv]
    · simp [hv, hu, ih]
    · simp [hu, hu ▸ hv, ih, eq_comm]
    · simp [hv, hu, ih, Ne.symm hu]
      rintro rfl
      exact absurd rfl hu

theorem mem_welcomed : u ∈ welcomed newcomer rows ↔
    u.user ≠ newcomer ∧ rows.find? (·.user = u.user) = some u ∧ u.wantsWelcomes := by
  rw [← filter_unseen, List.mem_filter, mem_unseen_iff, List.mem_singleton, and_assoc]

/-! ## Lookups -/

/-- What a lookup of preferences comes to: the answer, if it comes in time, and `absent` if there is no
row. -/
def found (limit : Limit) (operation : String) (absent : α) (reply : Reply StoreError α) :
    Except Failure α :=
  if reply.delay ≤ limit.expiry then
    match reply.answer with
    | .ok a => .ok a
    | .error .notFound => .ok absent
    | .error (.failed cause) => .error cause
  else .error (.timedOut operation limit)

/-- The preferences of the user at a position of a list. -/
def preferences (r : Resolver) (p : UserId × Nat) : Except Failure Recipient :=
  found r.limit "settings lookup" (.withDefaults p.1) (r.settings.user p.2 p.1)

/-- The preferences of recently active users. -/
def recentlyActive (r : Resolver) : Except Failure (List Recipient) :=
  found r.limit "active user lookup" [] (r.settings.activeUsers r.recentLimit)

theorem orAbsent_within {limit : Limit} {operation : String} {absent : α}
    {blame : Failure → ResolutionError} {reply : Reply StoreError α} :
    orAbsent absent blame (reply.within limit operation).answer =
      (found limit operation absent reply).mapError blame := by
  unfold Reply.within found
  split
  · rcases reply.answer with (_ | cause) | a <;> rfl
  · rfl

theorem value_user (p : UserId × Nat) :
    (r.user p.2 p.1).run.value = (r.preferences p).mapError (.settings p.1) :=
  orAbsent_within

theorem value_activeUsers : r.activeUsers.run.value = r.recentlyActive.mapError .activeUsers :=
  orAbsent_within

/-- The lookups of the greeters. -/
def greeterLookups (r : Resolver) : List (Timed (Except ResolutionError Recipient)) :=
  r.greeters.zipIdx.map fun p => (r.user p.2 p.1).run

/-- As many recently active users as the settings allow. -/
def latest (r : Resolver) (active : List Recipient) : List Recipient :=
  active.take (max r.recentLimit.toInt 0).toNat

/-- What is made of the answers to the lookups for a newcomer. -/
def welcome (r : Resolver) (newcomer : UserId) (active : List Recipient)
    (answers : List (Except ResolutionError Recipient)) : Except ResolutionError (List Recipient) := do
  let greeters ← answers.mapM id
  pure (welcomed newcomer (r.latest active ++ greeters))

theorem value_welcomers : (r.welcomers newcomer).run.value =
    r.recentlyActive.mapError .activeUsers >>= fun active =>
      (Timed.all r.greeterLookups).value.mapM id >>= fun greeters =>
        .ok (unseen [newcomer] (active.take r.recentLimit.toInt.toNat ++ greeters)) := by
  rw [welcomers, Timed.value_run_bind, value_activeUsers]
  cases r.recentlyActive with
  | error cause => rfl
  | ok active => exact (Timed.value_lift_bind _ _).trans (Timed.value_mk_bind _ _)

theorem value_resolve_welcome : (r.resolve (.welcomeRoom newcomer room)).run.value =
    r.recentlyActive.mapError .activeUsers >>= fun active =>
      r.welcome newcomer active (Timed.all r.greeterLookups).value := by
  have hb : r.resolve (.welcomeRoom newcomer room) = r.welcomers newcomer >>= fun recipients =>
      pure (recipients.filter (·.wantsWelcomes)) := rfl
  have hm : r.recentLimit.toInt.toNat = (max r.recentLimit.toInt 0).toNat := by omega
  rw [hb, Timed.value_run_bind, value_welcomers]
  cases r.recentlyActive with
  | error cause => rfl
  | ok active =>
    show _ = r.welcome newcomer active (Timed.all r.greeterLookups).value
    unfold welcome
    cases (Timed.all r.greeterLookups).value.mapM id with
    | error cause => rfl
    | ok greeters =>
      show Except.ok ((unseen _ _).filter _) = .ok (welcomed _ _)
      rw [filter_unseen, latest, hm]

theorem value_greeterLookups : (Timed.all r.greeterLookups).value =
    r.greeters.zipIdx.map fun p => (r.preferences p).mapError (.settings p.1) := by
  rw [Timed.value_all, greeterLookups, List.map_map]
  exact List.map_congr_left fun p _ => value_user p

/-- If no lookup of a greeter fails, the greeters stand in line after those who were active. -/
theorem welcome_ok {active : List Recipient}
    (h : List.Forall₂ (fun p u => r.preferences p = .ok u) r.greeters.zipIdx greeters) :
    r.welcome newcomer active (Timed.all r.greeterLookups).value =
      .ok (welcomed newcomer (r.latest active ++ greeters)) := by
  have hm : (Timed.all r.greeterLookups).value.mapM id = .ok greeters := by
    rw [value_greeterLookups, List.mapM_map, mapM_eq_ok]
    exact h.imp fun p u hu => congrArg (Except.mapError (ResolutionError.settings p.1)) hu
  rw [welcome, hm]
  rfl

/-- The first lookup of a greeter that fails is why nobody hears about a newcomer. -/
theorem welcome_error {active : List Recipient} {before after : List (UserId × Nat)} {p : UserId × Nat}
    {cause : Failure} (hs : r.greeters.zipIdx = before ++ p :: after)
    (hp : r.preferences p = .error cause) (hb : ∀ q ∈ before, ∃ u, r.preferences q = .ok u) :
    r.welcome newcomer active (Timed.all r.greeterLookups).value = .error (.settings p.1 cause) := by
  have hm : (Timed.all r.greeterLookups).value.mapM id = .error (.settings p.1 cause) := by
    rw [value_greeterLookups, List.mapM_map, mapM_eq_error]
    refine ⟨before, p, after, hs, congrArg (Except.mapError _) hp, fun q hq => ?_⟩
    obtain ⟨u, hu⟩ := hb q hq
    exact ⟨u, congrArg (Except.mapError _) hu⟩
  rw [welcome, hm]
  rfl

/-! ## The recipients of a welcome -/

/-- Recipients are those who hear about a newcomer, of the users who were active last and the greeters. -/
structure Welcomes (newcomer : UserId) (limit : Int) (active greeters recipients : List Recipient) : Prop where
  /-- Nobody twice, and not the newcomer. -/
  nodup : (newcomer :: recipients.map (·.user)).Nodup
  length_le : (recipients.length : Int) ≤ max limit 0 + greeters.length
  /-- Active users come first, and each part stands in the order in which it was found. -/
  ordered : ∃ first rest, recipients = first ++ rest ∧
    first.Sublist (active.take (max limit 0).toNat) ∧ rest.Sublist greeters ∧
    ∀ u ∈ rest, ∀ v ∈ active.take (max limit 0).toNat, v.user ≠ u.user
  /-- The first row of a user decides. -/
  mem_iff : ∀ u, u ∈ recipients ↔ u.user ≠ newcomer ∧ u.wantsWelcomes ∧
    (active.take (max limit 0).toNat ++ greeters).find? (·.user = u.user) = some u
  /-- Whoever does not want to hear about newcomers there is not let in later. -/
  declined : ∀ user u,
    (active.take (max limit 0).toNat ++ greeters).find? (·.user = user) = some u →
      u.wantsWelcomes = false → user ∉ recipients.map (·.user)

theorem welcomes (newcomer : UserId) (limit : Int) (active greeters : List Recipient) :
    Welcomes newcomer limit active greeters
      (welcomed newcomer (active.take (max limit 0).toNat ++ greeters)) := by
  have hmem (u : Recipient) := @mem_welcomed u (active.take (max limit 0).toNat ++ greeters) newcomer
  refine ⟨List.nodup_cons.2 ⟨fun hn => ?_, ?_⟩, ?_, ?_, fun u => ?_, fun user u hu hw hm => ?_⟩
  · obtain ⟨u, hu, he⟩ := List.mem_map.1 hn
    exact ((hmem u).1 hu).1 he
  · rw [← filter_unseen]
    exact nodup_unseen.sublist (List.filter_sublist.map _)
  · have hl := (@welcomed_sublist (active.take (max limit 0).toNat ++ greeters) newcomer).length_le
    rw [List.length_append, List.length_take] at hl
    omega
  · refine ⟨_, _, welcomed_append, welcomed_sublist, List.filter_sublist.trans welcomed_sublist, ?_⟩
    intro u hu v hv he
    exact of_decide_eq_true (List.mem_filter.1 hu).2 (List.mem_map.2 ⟨v, hv, he⟩)
  · rw [hmem]
    exact and_congr_right fun _ => and_comm
  · obtain ⟨v, hv, rfl⟩ := List.mem_map.1 hm
    obtain ⟨-, hfirst, hwants⟩ := (hmem v).1 hv
    cases hu.symm.trans hfirst
    rw [hw] at hwants
    cases hwants

/-- Whom the recipients of a welcome are.

If no lookup fails, they are found on a walk through the users who were active last, as many as the
settings allow, and then the greeters as configured, with default preferences where there is no row: the
newcomer and everybody who was met before are skipped, and of the others those remain who want to hear
about newcomers.

If it cannot be found out who is active, nobody hears of it. If the lookup of a greeter fails, neither:
the first one as configured that fails is blamed, whichever lookup is over first. -/
theorem welcome_targets (r : Resolver) (newcomer : UserId) (room : RoomId) :
    let result := (r.resolve (.welcomeRoom newcomer room)).run.value
    (∀ cause, r.recentlyActive = .error cause → result = .error (.activeUsers cause)) ∧
    ∀ active, r.recentlyActive = .ok active →
      (∀ greeters, List.Forall₂ (fun p u => r.preferences p = .ok u) r.greeters.zipIdx greeters →
        ∃ recipients, result = .ok recipients ∧
          recipients = welcomed newcomer (active.take (max r.recentLimit.toInt 0).toNat ++ greeters) ∧
          greeters.length = r.greeters.length ∧
          Welcomes newcomer r.recentLimit.toInt active greeters recipients) ∧
      (∀ before p after cause, r.greeters.zipIdx = before ++ p :: after →
        r.preferences p = .error cause → (∀ q ∈ before, ∃ u, r.preferences q = .ok u) →
          result = .error (.settings p.1 cause)) ∧
      Join.Yields r.greeterLookups (fun answers => r.welcome newcomer active answers = result) := by
  intro result
  have hr : result = _ := value_resolve_welcome
  refine ⟨fun cause hf => ?_, fun active ha => ?_⟩
  · rw [hr, hf]
    rfl
  replace hr : result = r.welcome newcomer active (Timed.all r.greeterLookups).value := by
    rw [hr, ha]
    rfl
  refine ⟨fun greeters hg => ⟨_, hr.trans (welcome_ok hg), rfl, ?_, welcomes ..⟩, ?_, Join.yields hr.symm⟩
  · rw [← hg.length_eq, List.length_zipIdx]
  · intro before p after cause hs hp hb
    exact hr.trans (welcome_error hs hp hb)

/-- User 1 was active and does not want to hear about newcomers, but does so by the settings that are
looked up later. User 2 was active twice, and after user 9 came user 8. User 3 has no settings. The
lookups of users 6 and 7 fail, and that of user 7 does so first. -/
def reunion (greeters : List UserId) (recentLimit : Int64) : Resolver where
  settings :=
    { user := fun _ user =>
        if user = 3 then ⟨2, .error .notFound⟩
        else if user = 6 then ⟨9, .error (.failed (.reported "down"))⟩
        else if user = 7 then ⟨1, .error (.failed (.reported "lost"))⟩
        else .now (.withDefaults user)
      followers := fun _ => .now []
      activeUsers := fun limit =>
        if limit = 0 then ⟨1, .error (.failed (.reported "gone"))⟩
        else .now [⟨1, .normal, true, false⟩, ⟨2, .off, true, true⟩, .withDefaults 2, .withDefaults 9,
          .withDefaults 8] }
  greeters := greeters
  recentLimit := recentLimit
  limit := .ofMillis 10

/-- Of those who were active and the greeters, user 2 welcomes user 9 with the first settings found, and
user 3 does. With a limit below zero nobody counts as active, and user 1 is a greeter like others. -/
theorem welcome_targets_reunion :
    ((reunion [1, 3, 2, 3] 4).resolve (.welcomeRoom 9 "r")).run.value =
      .ok [⟨2, .off, true, true⟩, .withDefaults 3] ∧
    ((reunion [9, 1, 3] (-4)).resolve (.welcomeRoom 9 "r")).run.value =
      .ok [.withDefaults 1, .withDefaults 3] ∧
    ((reunion [3, 6, 7] 4).resolve (.welcomeRoom 9 "r")).run.value =
      .error (.settings 6 (.reported "down")) ∧
    ((reunion [3, 6] 0).resolve (.welcomeRoom 9 "r")).run.value = .error (.activeUsers (.reported "gone")) := by
  obtain ⟨-, hfull⟩ := welcome_targets (reunion [1, 3, 2, 3] 4) 9 "r"
  obtain ⟨-, hnone⟩ := welcome_targets (reunion [9, 1, 3] (-4)) 9 "r"
  obtain ⟨-, hfailing⟩ := welcome_targets (reunion [3, 6, 7] 4) 9 "r"
  obtain ⟨hgone, -⟩ := welcome_targets (reunion [3, 6] 0) 9 "r"
  obtain ⟨full, -, -⟩ := hfull _ rfl
  obtain ⟨none, -, -⟩ := hnone _ rfl
  obtain ⟨-, failing, -⟩ := hfailing _ rfl
  obtain ⟨_, hf, rfl, -, -⟩ := full [.withDefaults 1, .withDefaults 3, .withDefaults 2, .withDefaults 3]
    (.cons rfl (.cons rfl (.cons rfl (.cons rfl .nil))))
  obtain ⟨_, hn, rfl, -, -⟩ := none [.withDefaults 9, .withDefaults 1, .withDefaults 3]
    (.cons rfl (.cons rfl (.cons rfl .nil)))
  refine ⟨hf.trans (congrArg _ (by decide)), hn.trans (congrArg _ (by decide)), ?_, hgone _ rfl⟩
  exact failing [(3, 0)] (6, 1) [(7, 2)] _ rfl rfl (List.forall_mem_singleton.2 ⟨_, rfl⟩)

end Herald.Resolver
