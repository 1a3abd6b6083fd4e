import Herald.Proofs.Audience
import Herald.Proofs.Cooldown
import Herald.Proofs.Gateway.Envelope

/-!
# One name for a room

What is built for an event of a room names the room in several places: as the collapse key, in the
arguments, in the keys of cooldowns and in requests to the gateway. It is the same name everywhere.

* `Event.room?`: the room of an event.
* `Registry.room_of_build`: what a notification takes from its event.
* `Registry.one_identity`: the name in all these places.
-/

namespace Herald

/-! ## Events and their notifications -/

/-- The room that an event is about. -/
def Event.room? : Event → Option RoomId
  | .roomCreation room _ _ | .roomJoin room _ _ | .roomInvite room _ _ | .welcomeRoom _ room =>
    some room
  | .newFollower .. | .followRecommendations .. => none

/-- The category of what is built for events of a kind. -/
def EventKind.category : EventKind → Category
  | .newFollower => .newFollower
  | .roomCreation => .newRoom
  | .roomJoin => .roomJoined
  | .roomInvite => .roomInvite
  | .welcomeRoom => .welcomeRoom
  | .followRecommendations => .followRecommendations

/-- New followers and newcomers are kept in the history. -/
theorem EventKind.isStorable_category {kind : EventKind} :
    kind.category.isStorable = true ↔ kind = .newFollower ∨ kind = .welcomeRoom := by
  cases kind <;> decide

namespace Registry

open Cooldown Gateway

variable {directories : Directories} {limit : Limit} {e : Event} {n : Notification}

/-- Recommendations hold nothing but numbers. -/
theorem arguments_of_recommendation {user : UserId} {accounts : List (UserId × String)}
    {alert : Alert} {arguments : Arguments}
    (h : Content.recommendation user accounts = .ok (alert, arguments)) :
    arguments.members = [("ids", .ofIds (accounts.map (·.1)))] := by
  unfold Content.recommendation at h
  split at h
  · cases h
  · cases hp : Phrasing.pluralise "follow_recommendations_with" none (accounts.map (·.2))
      (accounts.map (·.2)).length with
    | error cause => simp only [hp] at h; cases h
    | ok alert' => simp only [hp] at h; cases h; rfl

/-- What a notification takes from its event: its category, and the room, if there is one. -/
theorem room_of_build (h : ((standard directories limit).build e).run.value = .ok n) :
    n.category = e.kind.category ∧ n.collapseKey = e.room? ∧
      ∀ room, n.arguments.members.lookup "id" = some (.text room) ↔ e.room? = some room := by
  have hroom (id room : RoomId) : some (Json.text id) = some (.text room) ↔ some id = some room := by
    simp
  cases e with
  | newFollower follower followee =>
    obtain ⟨name, -, h⟩ := Timed.value_bind_ok h
    cases Timed.value_pure_ok h
    exact ⟨rfl, rfl, fun _ => ⟨fun h => (nomatch h), fun h => nomatch h⟩⟩
  | roomCreation id actor visibility | roomJoin id actor visibility =>
    cases visibility with
    | «private» => cases not_private_of_build h
    | «public» =>
      obtain ⟨room, -, h⟩ := Timed.value_bind_ok h
      obtain ⟨alert, -, h⟩ := Timed.value_bind_ok h
      cases Timed.value_pure_ok h
      exact ⟨rfl, rfl, hroom id⟩
  | roomInvite id host guest =>
    obtain ⟨found, -, h⟩ := Timed.value_bind_ok h
    obtain ⟨name, -, h⟩ := Timed.value_bind_ok h
    obtain ⟨room, -, h⟩ := Timed.value_bind_ok h
    cases Timed.value_pure_ok h
    exact ⟨rfl, rfl, hroom id⟩
  | welcomeRoom user id =>
    obtain ⟨name, -, h⟩ := Timed.value_bind_ok h
    cases Timed.value_pure_ok h
    exact ⟨rfl, rfl, hroom id⟩
  | followRecommendations user accounts =>
    obtain ⟨names, -, h⟩ := Timed.value_bind_ok h
    obtain ⟨accounts, -, h⟩ := Timed.value_bind_ok h
    obtain ⟨⟨alert, arguments⟩, hr, h⟩ := Timed.value_bind_ok h
    cases Timed.value_pure_ok h
    refine ⟨rfl, rfl, fun _ => ⟨fun h => ?_, fun h => nomatch h⟩⟩
    rw [arguments_of_recommendation hr] at h
    cases h

/-- The class of the cooldown for an event of a room: invites have one of their own. -/
def cooldownClass (e : Event) : Cooldown.Class :=
  if e.kind = .roomInvite then .roomInvite else .roomActivity

/-- The cooldown of what is built for an event is that of its room. -/
theorem window?_of_build (h : ((standard directories limit).build e).run.value = .ok n)
    (d : Durations) (user : UserId) : window? d user n =
      e.room?.map fun room => ⟨key user (cooldownClass e) room, d.get (cooldownClass e)⟩ := by
  obtain ⟨hc, hk, -⟩ := room_of_build h
  rw [window?, hc, hk]
  cases e <;> rfl

theorem valuesAt_of_build (h : ((standard directories limit).build e).run.value = .ok n)
    (token : DeviceToken) {path : List String} (hp : path ∈ Envelope.collapsePaths) :
    (Envelope.ofNotification token n).request.valuesAt path =
      e.room?.toList.map fun room => .text (some room) := by
  rw [Envelope.valuesAt_collapse _ hp, Envelope.ofNotification, (room_of_build h).2.1]

/-- A cooldown is told by the room of the event. -/
theorem room?_of_window (h : ((standard directories limit).build e).run.value = .ok n)
    {d : Durations} {user : UserId} {w : Window} (hw : window? d user n = some w) :
    ∃ room, e.room? = some room ∧ w.key = key user (cooldownClass e) room := by
  rw [window?_of_build h, Option.map_eq_some_iff] at hw
  obtain ⟨room, hr, rfl⟩ := hw
  exact ⟨room, hr, rfl⟩

/-- What is suppressed was sent before, to the same user, with what the gateway collapses alike. -/
theorem collapsed_of_suppressed (h : ((standard directories limit).build e).run.value = .ok n)
    {d : Durations} {timeout : Limit} {s : ClockedCache} (fresh : Fresh s.cache) {acts : List Act}
    {reply : Reply Failure Unit} {user : UserId}
    (hs : (shouldSend d timeout reply user n (after d timeout s acts)).1 = false) :
    ∃ room, e.room? = some room ∧ ∃ r ∈ sent d timeout s acts, r.user = user ∧
      ∀ token, ∀ path ∈ Envelope.collapsePaths,
        (Envelope.ofNotification token r.notification).request.valuesAt path =
          [.text (some room)] := by
  cases hw : window? d user n with
  | none => rw [shouldSend_of_none hw] at hs; cases hs
  | some w =>
    obtain ⟨room, hr, -⟩ := room?_of_window h hw
    have hm := ((shouldSend_eq_false hw).1 hs).2
    rw [Cache.isMarked, mark?_after fresh acts hw] at hm
    cases hf : (sent d timeout s acts).find? (·.Alike user n) with
    | none => simp [hf] at hm
    | some r =>
      have ha := List.find?_some hf
      obtain ⟨hu, -, -, hk⟩ : r.Alike user n := of_decide_eq_true ha
      refine ⟨room, hr, r, List.mem_of_find?_eq_some hf, hu, fun token path hp => ?_⟩
      rw [Envelope.valuesAt_collapse _ hp, Envelope.ofNotification, hk, (room_of_build h).2.1, hr]
      rfl

/-- What is built for an event of a room names the room alike wherever it is named: by its collapse
key, in its arguments, by the key of its cooldown for any user, and in both parts of a request from
which the gateway learns what to collapse. What is built for other events has no collapse key, its
request has neither part, and it is never suppressed.

So if two notifications share a cooldown, the gateway collapses them, too: what is suppressed was sent
to the user before, under the name of the same room. -/
theorem one_identity (d : Durations) (user : UserId) :
    (∀ directories limit e n, ((standard directories limit).build e).run.value = .ok n →
      (∀ room, e.room? = some room →
        n.collapseKey = some room ∧ n.arguments.members.lookup "id" = some (.text room) ∧
        window? d user n = some ⟨key user (cooldownClass e) room, d.get (cooldownClass e)⟩ ∧
        ∀ token, ∀ path ∈ Envelope.collapsePaths,
          (Envelope.ofNotification token n).request.valuesAt path = [.text (some room)]) ∧
      (e.room? = none → n.collapseKey = none ∧
        (∀ token, ∀ path ∈ Envelope.collapsePaths,
          (Envelope.ofNotification token n).request.valuesAt path = []) ∧
        ∀ timeout reply s, shouldSend d timeout reply user n s = (true, [], s)) ∧
      (∀ timeout s acts reply, Fresh s.cache →
        (shouldSend d timeout reply user n (after d timeout s acts)).1 = false →
        ∃ room, e.room? = some room ∧ ∃ r ∈ sent d timeout s acts, r.user = user ∧
          ∀ token, ∀ path ∈ Envelope.collapsePaths,
            (Envelope.ofNotification token r.notification).request.valuesAt path =
              [.text (some room)])) ∧
    (∀ directories limit e n directories' limit' e' n' user' w w',
      ((standard directories limit).build e).run.value = .ok n →
      ((standard directories' limit').build e').run.value = .ok n' →
      window? d user n = some w → window? d user' n' = some w' → w.key = w'.key →
      ∃ room, ∀ token, ∀ path ∈ Envelope.collapsePaths,
        (Envelope.ofNotification token n).request.valuesAt path = [.text (some room)] ∧
        (Envelope.ofNotification token n').request.valuesAt path = [.text (some room)]) := by
  refine ⟨fun directories limit e n h => ⟨fun room hr => ?_, fun hr => ?_, ?_⟩, ?_⟩
  · obtain ⟨-, hk, ha⟩ := room_of_build h
    refine ⟨hk.trans hr, (ha room).2 hr, ?_, fun token path hp => ?_⟩
    · rw [window?_of_build h, hr]; rfl
    · rw [valuesAt_of_build h token hp, hr]; rfl
  · refine ⟨(room_of_build h).2.1.trans hr, fun token path hp => ?_, fun timeout reply s => ?_⟩
    · rw [valuesAt_of_build h token hp, hr]; rfl
    · exact shouldSend_of_none (by rw [window?_of_build h, hr]; rfl)
  · exact fun timeout s acts reply fresh hs => collapsed_of_suppressed h fresh hs
  · intro directories limit e n directories' limit' e' n' user' w w' h h' hw hw' hkey
    obtain ⟨room, hr, hk⟩ := room?_of_window h hw
    obtain ⟨room', hr', hk'⟩ := room?_of_window h' hw'
    obtain ⟨-, -, rfl⟩ := key_inj ((hk.symm.trans hkey).trans hk')
    refine ⟨room, fun token path hp => ⟨?_, ?_⟩⟩
    · rw [valuesAt_of_build h token hp, hr]; rfl
    · rw [valuesAt_of_build h' token hp, hr']; rfl

/-- Two people are in every room, and everybody has a name. -/
def lively : Directories where
  users _ _ := ⟨1, .ok (some "ann")⟩
  rooms id := ⟨2, .ok (some ⟨id, none, [⟨1, "ann"⟩, ⟨2, "bob"⟩]⟩)⟩

/-- A room starts, and somebody joins it within the cooldown. A new follower has no room. -/
theorem one_identity_activity : ∃ started joined followed,
    ((standard lively (.ofMillis 10)).build (.roomCreation "a:b" 1 .public)).run.value = .ok started ∧
    ((standard lively (.ofMillis 10)).build (.roomJoin "a:b" 2 .public)).run.value = .ok joined ∧
    ((standard lively (.ofMillis 10)).build (.newFollower 3 4)).run.value = .ok followed ∧
    started.collapseKey = some "a:b" ∧ followed.collapseKey = none ∧
    (∃ room, ∀ token, ∀ path ∈ Envelope.collapsePaths,
      (Envelope.ofNotification token started).request.valuesAt path = [.text (some room)] ∧
      (Envelope.ofNotification token joined).request.valuesAt path = [.text (some room)]) ∧
    ∃ r ∈ sent ⟨50, 0⟩ (.ofMillis 10) {} [.pass 20, .record ⟨1, .ok ()⟩ 9 started], r.user = 9 := by
  obtain ⟨started, hs⟩ : ∃ n, ((standard lively (.ofMillis 10)).build
    (.roomCreation "a:b" 1 .public)).run.value = .ok n := ⟨_, rfl⟩
  obtain ⟨joined, hj⟩ : ∃ n, ((standard lively (.ofMillis 10)).build
    (.roomJoin "a:b" 2 .public)).run.value = .ok n := ⟨_, rfl⟩
  obtain ⟨followed, hf⟩ : ∃ n, ((standard lively (.ofMillis 10)).build
    (.newFollower 3 4)).run.value = .ok n := ⟨_, rfl⟩
  obtain ⟨each, both⟩ := one_identity ⟨50, 0⟩ 9
  refine ⟨started, joined, followed, hs, hj, hf, ((each _ _ _ _ hs).1 _ rfl).1,
    ((each _ _ _ _ hf).2.1 rfl).1, ?_, ?_⟩
  · exact both _ _ _ _ _ _ _ _ 9 _ _ hs hj (window?_of_build hs ..) (window?_of_build hj ..) rfl
  · have hb : (shouldSend ⟨50, 0⟩ (.ofMillis 10) ⟨1, .ok ()⟩ 9 joined
        (after ⟨50, 0⟩ (.ofMillis 10) {} [.pass 20, .record ⟨1, .ok ()⟩ 9 started])).1 = false := by
      cases hs; cases hj; rfl
    obtain ⟨-, -, r, hr, hu, -⟩ := (each _ _ _ _ hj).2.2 _ _ _ _ (fun _ _ _ => rfl) hb
    exact ⟨r, hr, hu⟩

end Registry

end Herald
