import Herald.Proofs.Lookups
import Herald.Proofs.Phrasing

/-!
# Who came into a room

What is built when somebody opens a room or comes into it, from what the room directory says about the
room. The actor is named first, and no more than three people are named.

* `value_build`: what becomes of such an event, by the answer of the directory.
* `membershipAlert_ok`, `membershipAlert_error`: the alert about a room, or why there is none.
* `entry_announced`: both together, for every room and every answer.
-/

namespace Herald.Membership

open Content Phrasing

/-! ## Entries -/

/-- Somebody opened a room or came into it; `verb` says which. -/
structure Entry where
  verb : String
  room : RoomId
  actor : UserId
  visibility : Visibility

/-- The entry that an event is. -/
def entry? : Event → Option Entry
  | .roomCreation room actor visibility => some ⟨"create", room, actor, visibility⟩
  | .roomJoin room actor visibility => some ⟨"join", room, actor, visibility⟩
  | _ => none

variable {directories : Directories} {limit : Limit} {e : Event} {entry : Entry} {room : Room}
  {title : Option String} {ordered : List Member}

/-- The name of the template for a room that is shown under a name, or under none. -/
def templateOf (verb : String) (title : Option String) (count : Nat) : String :=
  verb ++ (if title.isSome then "_named_room_with_" else "_room_with_") ++ sizeSuffix count

/-! ## Alerts -/

theorem roomKey_size (verb : String) (title : Option String) (count : Nat) :
    roomKey verb title.isSome ++ "_" ++ sizeSuffix count = templateOf verb title count := by
  cases title with
  | none =>
    have hk : verb ++ "_room_with" ++ "_" = verb ++ "_room_with_" := String.append_assoc
    exact congrArg (· ++ sizeSuffix count) hk
  | some title =>
    have hk : verb ++ "_named_room_with" ++ "_" = verb ++ "_named_room_with_" := String.append_assoc
    exact congrArg (· ++ sizeSuffix count) hk

/-- If the actor is in a room, there is an alert about it. -/
theorem membershipAlert_ok (verb : String) (id : RoomId) {actor : UserId} (ht : room.Titled title)
    (ho : Leads room.members actor ordered) : membershipAlert verb id actor room =
      .ok ⟨templateOf verb title room.members.length,
        title.toList ++ (ordered.map (·.name)).take (min 3 room.members.length) ++
          unnamed room.members.length⟩ := by
  have hm : room.members ≠ [] := by
    obtain ⟨before, first, after, hm, -⟩ := ho
    simp [hm]
  have hlen : min 3 room.members.length ≤ (ordered.map (·.name)).length := by
    rw [List.length_map, ho.length]
    exact Nat.min_le_right ..
  have hempty : room.members.isEmpty = false := by simpa using hm
  unfold membershipAlert
  rw [if_neg (Bool.eq_false_iff.1 hempty), leadWith_eq_some.2 ho, Room.titled_iff.1 ht]
  show pluralise _ _ _ _ = _
  rw [pluralise_ok (List.length_pos_iff.2 hm) hlen, roomKey_size]

/-- An empty room, and a room without the actor: there is no alert. -/
theorem membershipAlert_error (verb : String) (id : RoomId) (actor : UserId) (room : Room) :
    (room.members = [] → membershipAlert verb id actor room = .error (.emptyRoom id)) ∧
    (room.members ≠ [] → (∀ m ∈ room.members, m.id ≠ actor) →
      membershipAlert verb id actor room = .error (.actorLeftRoom id actor)) := by
  refine ⟨fun h => ?_, fun h hn => ?_⟩
  · simp [membershipAlert, h]
  · simp [membershipAlert, h, leadWith_eq_none.2 hn]

/-! ## Events -/

/-- What is built for an entry, once the alert is known. -/
def announcement (category : Category) (entry : Entry) (alert : Alert) : Notification where
  category
  alert
  arguments := roomArguments entry.room
  collapseKey := some entry.room
  origin := some entry.actor

/-- What becomes of an entry, by the answer of the directory. -/
theorem value_build (h : entry? e = some entry) :
    ((Registry.standard directories limit).build e).run.value =
      if entry.visibility = .private then .error (.privateRoom entry.room)
      else match ((directories.rooms entry.room).within limit "room lookup").answer with
        | .ok (some room) => (membershipAlert entry.verb entry.room entry.actor room).map
            (announcement e.kind.category entry)
        | .ok none => .error (.unknownRoom entry.room)
        | .error cause => .error (.lookup cause) := by
  have hbuild (verb : String) (category : Category) (id : RoomId) (actor : UserId) :
      (do
        let room ← Lookups.room ⟨directories, limit⟩ id
        let alert ← ExceptT.mk (pure (membershipAlert verb id actor room))
        pure (announcement category ⟨verb, id, actor, .public⟩ alert) :
          ExceptT BuildError Timed Notification).run.value =
      match ((directories.rooms id).within limit "room lookup").answer with
      | .ok (some room) => (membershipAlert verb id actor room).map
          (announcement category ⟨verb, id, actor, .public⟩)
      | .ok none => .error (.unknownRoom id)
      | .error cause => .error (.lookup cause) := by
    rw [Timed.value_run_bind, Lookups.room, Lookups.value_ask]
    rcases ((directories.rooms id).within limit "room lookup").answer with cause | (_ | room)
    · rfl
    · rfl
    · show Timed.value (ExceptT.mk (pure (membershipAlert verb id actor room)) >>= fun alert =>
        (pure (announcement category ⟨verb, id, actor, .public⟩ alert) :
          ExceptT BuildError Timed Notification)).run =
        (membershipAlert verb id actor room).map (announcement category ⟨verb, id, actor, .public⟩)
      rw [Timed.value_run_bind]
      cases membershipAlert verb id actor room <;> rfl
  cases e with
  | roomCreation id actor visibility | roomJoin id actor visibility =>
    cases h
    cases visibility with
    | «private» => rfl
    | «public» => exact hbuild _ _ id actor
  | _ => cases h

/-- What is built for somebody who opens a room or comes into it.

If the room is public, and the directory answers in time with a room in which the actor is, there is an
alert: its template is told by the name of the room, if one is shown, and by how many people are in
there, each entry counted. It names the room, if it has a name to show, then the actor and the next
two entries in the room's order, and it says how many entries are left.

In all other cases there is none, and the first reason of these is given: the room is private, it was
not looked up in time, the lookup failed, there is no such room, nobody is in it, the actor is not. -/
theorem entry_announced (h : entry? e = some entry) :
    let result := ((Registry.standard directories limit).build e).run.value
    let reply := directories.rooms entry.room
    (entry.visibility = .private → result = .error (.privateRoom entry.room)) ∧
    (entry.visibility = .public →
      (limit.expiry < reply.delay →
        result = .error (.lookup (.timedOut "room lookup" limit))) ∧
      (reply.delay ≤ limit.expiry →
        (∀ cause, reply.answer = .error cause → result = .error (.lookup cause)) ∧
        (reply.answer = .ok none → result = .error (.unknownRoom entry.room)) ∧
        ∀ room, reply.answer = .ok (some room) →
          (room.members = [] → result = .error (.emptyRoom entry.room)) ∧
          (room.members ≠ [] → (∀ m ∈ room.members, m.id ≠ entry.actor) →
            result = .error (.actorLeftRoom entry.room entry.actor)) ∧
          ((∃ m ∈ room.members, m.id = entry.actor) →
            ∃ n title ordered, result = .ok n ∧ room.Titled title ∧
              Leads room.members entry.actor ordered ∧
              n.alert.key = entry.verb ++
                (if title.isSome then "_named_room_with_" else "_room_with_") ++
                (if room.members.length ≤ 3 then Decimal.ofNat room.members.length
                  else "3_and_more") ∧
              n.alert.arguments = title.toList ++
                (ordered.map (·.name)).take (min 3 room.members.length) ++
                (if room.members.length ≤ 3 then []
                  else [Decimal.ofNat (room.members.length - 3)])))) := by
  intro result reply
  have hv : result = _ := value_build h
  refine ⟨fun hp => hv.trans (if_pos hp), fun hp => ?_⟩
  have hp : entry.visibility ≠ .private := by simp [hp]
  rw [if_neg hp] at hv
  refine ⟨fun hl => ?_, fun hl => ?_⟩
  · rw [hv, Reply.within, if_neg (Nat.not_le.2 hl)]
    rfl
  rw [Reply.within, if_pos hl] at hv
  refine ⟨fun cause ha => ?_, fun ha => ?_, fun room ha => ?_⟩
  · rw [hv, ha]
  · rw [hv, ha]
  rw [ha] at hv
  have hv : result = (membershipAlert entry.verb entry.room entry.actor room).map _ := hv
  obtain ⟨hempty, hleft⟩ := membershipAlert_error entry.verb entry.room entry.actor room
  refine ⟨fun hm => ?_, fun hm hn => ?_, fun hin => ?_⟩
  · rw [hv, hempty hm]; rfl
  · rw [hv, hleft hm hn]; rfl
  · cases hlead : leadWith room.members entry.actor with
    | none =>
      obtain ⟨m, hm, hi⟩ := hin
      exact absurd hi (leadWith_eq_none.1 hlead m hm)
    | some ordered =>
      have ho := leadWith_eq_some.1 hlead
      have ht : room.Titled room.displayName := Room.titled_iff.2 rfl
      rw [membershipAlert_ok entry.verb entry.room ht ho] at hv
      exact ⟨_, room.displayName, ordered, hv, ht, ho, rfl, rfl⟩

/-- A room has a name between blanks, and some people have two entries. -/
def crowded : Directories where
  users _ _ := .now none
  rooms id := ⟨5, .ok (some
    ⟨id, some "\u2003den ", [⟨1, "ann"⟩, ⟨2, "bob"⟩, ⟨1, "ann"⟩, ⟨2, "rob"⟩]⟩)⟩

theorem entry_announced_crowded : ∃ n,
    ((Registry.standard crowded (.ofMillis 9)).build (.roomJoin "a" 2 .public)).run.value = .ok n ∧
    n.alert = ⟨"join_named_room_with_3_and_more", ["den", "bob", "ann", "ann", "1"]⟩ := by
  have hentry : entry? (.roomJoin "a" 2 .public) = some ⟨"join", "a", 2, .public⟩ := rfl
  obtain ⟨-, answered⟩ := (@entry_announced crowded (.ofMillis 9) _ _ hentry).2 rfl
  obtain ⟨n, title, ordered, hn, ht, ho, hk, ha⟩ :=
    ((answered (by decide)).2.2 _ rfl).2.2 ⟨⟨2, "bob"⟩, by decide, rfl⟩
  obtain rfl : title = some "den" := (Room.titled_iff.1 ht).symm.trans (by decide +kernel)
  obtain rfl : ordered = [⟨2, "bob"⟩, ⟨1, "ann"⟩, ⟨1, "ann"⟩, ⟨2, "rob"⟩] :=
    Option.some.inj ((leadWith_eq_some.2 ho).symm.trans (by decide +kernel))
  refine ⟨n, hn, ?_⟩
  rw [show n.alert = ⟨n.alert.key, n.alert.arguments⟩ from rfl, hk, ha]
  rfl

end Herald.Membership
