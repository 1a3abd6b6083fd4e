import Herald.Call
import Herald.Phrasing

/-!
# Content

One event becomes one notification. A `Registry` has a builder for each kind of event that it
knows; `Registry.standard` knows them all.

* `known`: of the accounts of a recommendation those with a name count, in order; the first other
  failure in the order of the list, not of time, is the failure of the whole.

Here are `build` and `register` of the content builder (`Registry`), its lookups `name` and `room`,
and `build` of the builder of each kind of event.
-/

namespace Herald

/-- Who knows the names of users and the state of rooms. -/
structure Directories where
  /-- To a lookup of the user at a position of a list. -/
  users : Nat → UserId → Reply Failure (Option String)
  rooms : RoomId → Reply Failure (Option Room)

/-- Builds the notification for events of one kind. -/
abbrev Builder := Event → ExceptT BuildError Timed Notification

/-- The builders, by the kind of event. -/
abbrev Registry := EventKind → Option Builder

namespace Content

/-- The directories, each call to them under the same limit. -/
structure Lookups where
  directories : Directories
  limit : Limit

namespace Lookups

variable {α : Type}

/-- One lookup, which fails with `absent` if nothing is found. -/
def ask (l : Lookups) (operation : String) (c : Call) (r : Reply Failure (Option α))
    (absent : BuildError) : ExceptT BuildError Timed α :=
  ExceptT.mk do
    match ← Timed.call l.limit operation c r with
    | .ok (some a) => pure (.ok a)
    | .ok none => pure (.error absent)
    | .error cause => pure (.error (.lookup cause))

/-- The display name of the user at a position of a list. -/
def name (l : Lookups) (position : Nat) (user : UserId) : ExceptT BuildError Timed String :=
  l.ask "display name lookup" (.displayName user) (l.directories.users position user)
    (.unknownUser user)

/-- The state of a room. -/
def room (l : Lookups) (room : RoomId) : ExceptT BuildError Timed Room :=
  l.ask "room lookup" (.room room) (l.directories.rooms room) (.unknownRoom room)

end Lookups

/-- The failure of a builder that is given an event of another kind. -/
def unexpected (e : Event) : BuildError := .unexpectedEvent e.kind.name

/-- Someone has a new follower. -/
def newFollower (l : Lookups) : Builder
  | .newFollower follower _ => do
    let name ← l.name 0 follower
    pure {
      category := .newFollower
      alert := ⟨"new_follower_notification", [name]⟩
      arguments := Arguments.empty.set "id" (.ofId follower) (Json.isCanonical_ofId follower)
      origin := some follower }
  | e => throw (unexpected e)

/-- The argument that names a room. -/
def roomArguments (room : RoomId) : Arguments := Arguments.empty.set "id" (.text room) rfl

/-- The alert about what `actor` did in a room. -/
def membershipAlert (verb : String) (id : RoomId) (actor : UserId) (room : Room) :
    Except BuildError Alert :=
  if room.members.isEmpty then .error (.emptyRoom id)
  else match Phrasing.leadWith room.members actor with
    | none => .error (.actorLeftRoom id actor)
    | some ordered =>
      Phrasing.pluralise (Phrasing.roomKey verb room.displayName.isSome) room.displayName
        (ordered.map (·.name)) room.members.length

/-- Someone opened a room or came into it. A private room is not even looked up. -/
def membership (l : Lookups) (verb : String) (category : Category) : Builder := fun e =>
  let build (id : RoomId) (actor : UserId) (visibility : Visibility) :
      ExceptT BuildError Timed Notification := do
    if visibility = .private then throw (.privateRoom id)
    let room ← l.room id
    let alert ← ExceptT.mk (pure (membershipAlert verb id actor room))
    pure {
      category
      alert
      arguments := roomArguments id
      collapseKey := some id
      origin := some actor }
  match e with
  | .roomCreation id actor visibility => build id actor visibility
  | .roomJoin id actor visibility => build id actor visibility
  | e => throw (unexpected e)

/-- Someone is invited to a room. Host and room are looked up side by side, and a failure to find
the host is the one that counts. -/
def roomInvite (l : Lookups) : Builder
  | .roomInvite id host _ => do
    let (name, room) ← ExceptT.lift ((l.name 0 host).run.both (l.room id).run)
    let name ← ExceptT.mk (pure name)
    let room ← ExceptT.mk (pure room)
    pure {
      category := .roomInvite
      alert := match room.displayName with
        | some roomName => ⟨"room_invite_named_notification", [name, roomName]⟩
        | none => ⟨"room_invite_notification", [name]⟩
      arguments := roomArguments id
      collapseKey := some id
      origin := some host }
  | e => throw (unexpected e)

/-- Someone new is waiting in a room. -/
def welcomeRoom (l : Lookups) : Builder
  | .welcomeRoom user id => do
    let name ← l.name 0 user
    pure {
      category := .welcomeRoom
      alert := ⟨"welcome_room_notification", [name]⟩
      arguments := (roomArguments id).set "from" (.ofId user) (Json.isCanonical_ofId user)
      collapseKey := some id
      origin := some user }
  | e => throw (unexpected e)

/-- The accounts with a name, in order; unless some lookup failed otherwise than by finding
nobody, and then the first such failure. -/
def known : List (UserId × Except BuildError String) → Except BuildError (List (UserId × String))
  | [] => .ok []
  | (id, .ok name) :: rest => (known rest).map ((id, name) :: ·)
  | (_, .error (.unknownUser _)) :: rest => known rest
  | (_, .error e) :: _ => .error e

/-- The alert and the arguments that recommend accounts to a user. -/
def recommendation (user : UserId) (accounts : List (UserId × String)) :
    Except BuildError (Alert × Arguments) :=
  if accounts.isEmpty then
    .error (.nothingToBuild s!"follow recommendations for user {Decimal.ofId user}")
  else do
    let names := accounts.map (·.2)
    let ids := accounts.map (·.1)
    let alert ← Phrasing.pluralise "follow_recommendations_with" none names names.length
    pure (alert, Arguments.empty.set "ids" (.ofIds ids) (Json.isCanonical_ofIds ids))

/-- Accounts that a user may want to follow. All names are looked up side by side. -/
def followRecommendations (l : Lookups) : Builder
  | .followRecommendations user accounts => do
    let names ← ExceptT.lift (Timed.all (accounts.zipIdx.map fun p => (l.name p.2 p.1).run))
    let accounts ← ExceptT.mk (pure (known (accounts.zip names)))
    let (alert, arguments) ← ExceptT.mk (pure (recommendation user accounts))
    pure {
      category := .followRecommendations
      alert
      arguments
      origin := some user }
  | e => throw (unexpected e)

end Content

namespace Registry

open Content

/-- No builders. -/
def empty : Registry := fun _ => none

/-- The registry with a builder for a kind, in place of one it may have. -/
def register (r : Registry) (kind : EventKind) (b : Builder) : Registry :=
  fun k => if k = kind then some b else r k

/-- A builder for every kind of event. -/
def standard (directories : Directories) (limit : Limit) : Registry :=
  let l : Lookups := ⟨directories, limit⟩
  fun
  | .newFollower => some (newFollower l)
  | .roomCreation => some (membership l "create" .newRoom)
  | .roomJoin => some (membership l "join" .roomJoined)
  | .roomInvite => some (roomInvite l)
  | .welcomeRoom => some (welcomeRoom l)
  | .followRecommendations => some (followRecommendations l)

/-- Builds the notification for an event. -/
def build (r : Registry) (e : Event) : ExceptT BuildError Timed Notification :=
  match r e.kind with
  | some b => b e
  | none => throw (unexpected e)

end Registry

end Herald
