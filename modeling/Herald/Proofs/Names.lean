import Herald.Proofs.Join
import Herald.Proofs.Suggestion

/-!
# Lookups side by side

The names of recommended accounts are looked up side by side, and so are the host of an invite and its
room. What is built depends on what is answered, and not on which answer comes first.

* `value_build_invite`: what is built for an invite, by the two answers.
* `value_build_agree`: what is built from directories that say the same, sooner or later.
* `order_immaterial`: what is built from answers that come in any order.
-/

namespace Herald.Recommendation

open Content

variable {directories directories' : Directories} {limit : Limit} {id : RoomId} {host guest user : UserId}
  {accounts : List UserId}

/-! ## Invites -/

/-- What the lookup of a room comes to: the answer, if it comes in time. -/
def roomOf (directories : Directories) (limit : Limit) (id : RoomId) : Except Failure (Option Room) :=
  if (directories.rooms id).delay ≤ limit.expiry then (directories.rooms id).answer
  else .error (.timedOut "room lookup" limit)

theorem value_room : (Lookups.room ⟨directories, limit⟩ id).run.value =
    match roomOf directories limit id with
    | .ok (some room) => .ok room
    | .ok none => .error (.unknownRoom id)
    | .error cause => .error (.lookup cause) := by
  have ha : ((directories.rooms id).within limit "room lookup").answer = roomOf directories limit id := by
    unfold Reply.within roomOf
    split <;> rfl
  rw [Lookups.room, Lookups.value_ask, ha]
  rcases roomOf directories limit id with cause | (_ | room) <;> rfl

/-- The lookups of the host of an invite and of its room. -/
def inviteLookups (directories : Directories) (limit : Limit) (id : RoomId) (host : UserId) :
    List (Timed (Except BuildError String ⊕ Except BuildError Room)) :=
  [Sum.inl <$> (Lookups.name ⟨directories, limit⟩ 0 host).run,
    Sum.inr <$> (Lookups.room ⟨directories, limit⟩ id).run]

/-- The notification of an invite. -/
def invitation (id : RoomId) (host : UserId) (name : String) (room : Room) : Notification where
  category := .roomInvite
  alert := match room.displayName with
    | some roomName => ⟨"room_invite_named_notification", [name, roomName]⟩
    | none => ⟨"room_invite_notification", [name]⟩
  arguments := roomArguments id
  collapseKey := some id
  origin := some host

/-- What is made of the answers to the lookups for an invite. -/
def invite (id : RoomId) (host : UserId) (name : Except BuildError String)
    (room : Except BuildError Room) : Except BuildError Notification := do
  let name ← name
  let room ← room
  pure (invitation id host name room)

theorem value_build_invite :
    ((Registry.standard directories limit).build (.roomInvite id host guest)).run.value =
      invite id host (Lookups.name ⟨directories, limit⟩ 0 host).run.value
        (Lookups.room ⟨directories, limit⟩ id).run.value := by
  let name := (Lookups.name ⟨directories, limit⟩ 0 host).run.value
  let room := (Lookups.room ⟨directories, limit⟩ id).run.value
  show Timed.value (ExceptT.mk (pure name) >>= _).run = _
  rw [Timed.value_mk_bind]
  refine congrArg (name >>= ·) (funext fun name => ?_)
  show Timed.value (ExceptT.mk (pure room) >>= _).run = _
  rw [Timed.value_mk_bind]
  rfl

/-! ## Replies that agree -/

/-- Two replies come in time and say the same, though not at the same moment. -/
def Agree {ε α : Type} (limit : Limit) (r r' : Reply ε α) : Prop :=
  r.delay ≤ limit.expiry ∧ r'.delay ≤ limit.expiry ∧ r.answer = r'.answer

theorem value_build_agree
    (hu : ∀ position user, Agree limit (directories.users position user) (directories'.users position user))
    (hr : ∀ id, Agree limit (directories.rooms id) (directories'.rooms id)) {e : Event}
    (he : e.kind = .followRecommendations ∨ e.kind = .roomInvite) :
    ((Registry.standard directories limit).build e).run.value =
      ((Registry.standard directories' limit).build e).run.value := by
  have hname : nameOf directories limit = nameOf directories' limit := funext fun p => by
    obtain ⟨h, h', ha⟩ := hu p.2 p.1
    rw [nameOf, nameOf, if_pos h, if_pos h', ha]
  have hroom (id : RoomId) : roomOf directories limit id = roomOf directories' limit id := by
    obtain ⟨h, h', ha⟩ := hr id
    rw [roomOf, roomOf, if_pos h, if_pos h', ha]
  cases e with
  | followRecommendations user accounts => rw [value_build_scan, value_build_scan, hname]
  | roomInvite id host guest =>
    have hn : (Lookups.name ⟨directories, limit⟩ 0 host).run.value =
        (Lookups.name ⟨directories', limit⟩ 0 host).run.value :=
      (value_name (host, 0)).trans (hname ▸ (value_name (host, 0)).symm)
    rw [value_build_invite, value_build_invite, hn, value_room, value_room, hroom]
  | _ => rcases he with he | he <;> cases he

/-! ## Answers in any order -/

/-- What is built from lookups that are made side by side.

For recommended accounts it is what a scan of them from left to right comes to, in whatever order the
lookups are over. If one fails or is late, the first such one in the list, not in time, is the reason
that nothing is built. If none does, accounts without a name are left out, and if nobody is left there
is nothing to build. All others are recommended in the order of the list, each as often as it is
there, and the names are those of the accounts that are listed.

For an invite, a failure to find the host counts before a failure to find the room, whichever lookup is
over first.

So other directories that say the same, sooner or later but in time, lead to the same. -/
theorem order_immaterial (directories : Directories) (limit : Limit) :
    (∀ user accounts,
      let result := ((Registry.standard directories limit).build
        (.followRecommendations user accounts)).run.value
      let name? := nameOf directories limit
      result = conclude user (scan name? accounts.zipIdx) ∧
      Join.Yields (nameLookups directories limit accounts)
        (fun names => suggest user accounts names = result) ∧
      (∀ cause, result = .error (.lookup cause) ↔
        ∃ before p after, accounts.zipIdx = before ++ p :: after ∧ name? p = .error cause ∧
          ∀ q ∈ before, ∃ answer, name? q = .ok answer) ∧
      ((∃ subject, result = .error (.nothingToBuild subject)) ↔
        ∀ p ∈ accounts.zipIdx, name? p = .ok none) ∧
      ∀ n, result = .ok n →
        Recommends n (accounts.zipIdx.filterMap (withName name?)) ∧
          ∀ p ∈ accounts.zipIdx, ∃ answer, name? p = .ok answer) ∧
    (∀ id host guest,
      let result := ((Registry.standard directories limit).build (.roomInvite id host guest)).run.value
      Join.Yields (inviteLookups directories limit id host)
        (fun answers => ∃ name room, answers = [.inl name, .inr room] ∧
          invite id host name room = result) ∧
      (∀ cause, nameOf directories limit (host, 0) = .error cause → result = .error (.lookup cause)) ∧
      (nameOf directories limit (host, 0) = .ok none → result = .error (.unknownUser host)) ∧
      ∀ name, nameOf directories limit (host, 0) = .ok (some name) →
        (∀ cause, roomOf directories limit id = .error cause → result = .error (.lookup cause)) ∧
        (roomOf directories limit id = .ok none → result = .error (.unknownRoom id)) ∧
        ∀ room, roomOf directories limit id = .ok (some room) →
          result = .ok (invitation id host name room)) ∧
    ∀ directories',
      (∀ position user,
        Agree limit (directories.users position user) (directories'.users position user)) →
      (∀ id, Agree limit (directories.rooms id) (directories'.rooms id)) →
      ∀ e : Event, e.kind = .followRecommendations ∨ e.kind = .roomInvite →
        ((Registry.standard directories limit).build e).run.value =
          ((Registry.standard directories' limit).build e).run.value := by
  refine ⟨fun user accounts => ?_, fun id host guest => ?_, fun directories' hu hr e he => ?_⟩
  · intro result name?
    have hscan : result = conclude user (scan name? accounts.zipIdx) := value_build_scan
    refine ⟨hscan, Join.yields value_build_suggest.symm, fun cause => ?_, ?_, fun n hn => ?_⟩
    · rw [hscan, conclude_eq_lookup]
      exact scan_eq_error
    · rw [hscan, conclude_eq_nothing, scan_eq_nil]
    · obtain ⟨found, hs, -, rfl⟩ := conclude_eq_ok.1 (hscan.symm.trans hn)
      obtain ⟨answered, rfl⟩ := scan_eq_ok.1 hs
      exact ⟨⟨rfl, rfl, rfl⟩, answered⟩
  · intro result
    have hr : result = _ := value_build_invite
    refine ⟨Join.yields ⟨_, _, rfl, hr.symm⟩, fun cause hn => ?_, fun hn => ?_, fun name hn => ?_⟩
    · rw [hr, value_name (host, 0), hn]; rfl
    · rw [hr, value_name (host, 0), hn]; rfl
    rw [value_name (host, 0), hn, value_room] at hr
    refine ⟨fun cause hf => ?_, fun hf => ?_, fun room hf => ?_⟩ <;> rw [hr, hf] <;> rfl
  · exact value_build_agree hu hr he

/-- User 5 has no name, and the lookups of users 6 and 7 fail. -/
def patchy (delay : UserId → Nat) : Directories where
  users _ user := ⟨delay user,
    if user = 5 then .ok none
    else if user = 6 then .error (.reported "down")
    else if user = 7 then .error (.reported "lost")
    else .ok (some "ann")⟩
  rooms _ := .now none

/-- The lookup of user 7 takes less time than the others. -/
def slowButSeven (user : UserId) : Nat := if user = 7 then 1 else 9

/-- The lookup of user 7 is over first, and that of user 4 last. Latest first. -/
def lastFirst : List Join.Act :=
  [.finish 0, .finish 1, .finish 2, .pass 9, .finish 3, .pass 1]

/-- The lookup of user 7 fails first, but that of user 6 counts. It does so, too, if all answers come at
once. User 4 alone is recommended twice. If user 7 invites somebody, it does not matter that the room is
not known. -/
theorem order_immaterial_lastFirst :
    (∃ j names, Join.Run (nameLookups (patchy slowButSeven) (.ofMillis 10) [4, 5, 6, 7]) lastFirst j ∧
      j.results? = some names ∧
      suggest 1 [4, 5, 6, 7] names = .error (.lookup (.reported "down"))) ∧
    ((Registry.standard (patchy fun _ => 0) (.ofMillis 10)).build
      (.followRecommendations 1 [4, 5, 6, 7])).run.value = .error (.lookup (.reported "down")) ∧
    (∃ n, ((Registry.standard (patchy slowButSeven) (.ofMillis 10)).build
        (.followRecommendations 1 [4, 5, 4])).run.value = .ok n ∧
      Recommends n [(4, "ann"), (4, "ann")]) ∧
    ((Registry.standard (patchy slowButSeven) (.ofMillis 10)).build (.roomInvite "r" 7 1)).run.value =
      .error (.lookup (.reported "lost")) := by
  obtain ⟨recommended, invited, agreeing⟩ := order_immaterial (patchy slowButSeven) (.ofMillis 10)
  obtain ⟨-, sideBySide, failed, -⟩ := recommended 1 [4, 5, 6, 7]
  obtain ⟨j, hj⟩ : ∃ j, play Join.act
      (.start (nameLookups (patchy slowButSeven) (.ofMillis 10) [4, 5, 6, 7])) lastFirst = some j :=
    ⟨_, rfl⟩
  obtain ⟨names, hn⟩ : ∃ names, j.results? = some names := by cases hj; exact ⟨_, rfl⟩
  have hfail := (failed (.reported "down")).2 ⟨[(4, 0), (5, 1)], (6, 2), [(7, 3)], rfl, rfl,
    List.forall_mem_cons.2 ⟨⟨_, rfl⟩, List.forall_mem_singleton.2 ⟨_, rfl⟩⟩⟩
  have hin (user : UserId) : slowButSeven user ≤ (Limit.ofMillis 10).expiry := by
    unfold slowButSeven; split <;> decide
  have hsame := agreeing (patchy fun _ => 0) (fun position user => ⟨hin user, Nat.zero_le _, rfl⟩)
    (fun id => ⟨Nat.zero_le _, Nat.zero_le _, rfl⟩) (.followRecommendations 1 [4, 5, 6, 7]) (.inl rfl)
  obtain ⟨-, -, -, -, built⟩ := recommended 1 [4, 5, 4]
  exact ⟨⟨j, names, trace_iff.2 hj, hn, (sideBySide.1 _ _ _ (trace_iff.2 hj) hn).trans hfail⟩,
    hsame.symm.trans hfail, ⟨_, rfl, (built _ rfl).1⟩, (invited "r" 7 1).2.1 _ rfl⟩

end Herald.Recommendation
