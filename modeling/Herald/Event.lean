/-!
# Events

What users do that others may hear about, as published on the lifecycle queues.

Here are `kind` and `origin` of an event.
-/

namespace Herald

/-- A user's number. -/
abbrev UserId := Int64

/-- A room's name in the room directory: any text. -/
abbrev RoomId := String

/-- The address of a device at the push gateway. -/
abbrev DeviceToken := String

/-- Who may know what happens in a room. -/
inductive Visibility where
  | «public»
  | «private»
deriving DecidableEq, Repr

/-- Something a user did. -/
inductive Event where
  | newFollower (follower followee : UserId)
  | roomCreation (room : RoomId) (creator : UserId) (visibility : Visibility)
  /-- `member` is the one who joined. -/
  | roomJoin (room : RoomId) (member : UserId) (visibility : Visibility)
  | roomInvite (room : RoomId) (host guest : UserId)
  | welcomeRoom (user : UserId) (room : RoomId)
  | followRecommendations (user : UserId) (accounts : List UserId)
deriving DecidableEq, Repr

/-- The kinds of events. -/
inductive EventKind where
  | newFollower
  | roomCreation
  | roomJoin
  | roomInvite
  | welcomeRoom
  | followRecommendations
deriving DecidableEq, Repr

namespace EventKind

/-- Every kind. -/
def all : List EventKind :=
  [.newFollower, .roomCreation, .roomJoin, .roomInvite, .welcomeRoom, .followRecommendations]

/-- The name of a kind on the queues. -/
def name : EventKind → String
  | .newFollower => "new_follower"
  | .roomCreation => "room_creation"
  | .roomJoin => "room_join"
  | .roomInvite => "room_invite"
  | .welcomeRoom => "welcome_room"
  | .followRecommendations => "follow_recommendations"

/-- The kind of that name. -/
def ofName? (s : String) : Option EventKind := all.find? (·.name == s)

theorem ofName?_name (k : EventKind) : ofName? k.name = some k := by cases k <;> decide

end EventKind

namespace Visibility

/-- The name of a visibility on the queues. -/
def name : Visibility → String
  | .public => "public"
  | .private => "private"

/-- The visibility of that name. -/
def ofName? (s : String) : Option Visibility := [Visibility.public, .private].find? (·.name == s)

theorem ofName?_name (v : Visibility) : ofName? v.name = some v := by cases v <;> decide

end Visibility

namespace Event

/-- The kind of an event. -/
def kind : Event → EventKind
  | .newFollower .. => .newFollower
  | .roomCreation .. => .roomCreation
  | .roomJoin .. => .roomJoin
  | .roomInvite .. => .roomInvite
  | .welcomeRoom .. => .welcomeRoom
  | .followRecommendations .. => .followRecommendations

/-- The user whose action produced the event. -/
def origin : Event → UserId
  | .newFollower follower _ => follower
  | .roomCreation _ creator _ => creator
  | .roomJoin _ member _ => member
  | .roomInvite _ host _ => host
  | .welcomeRoom user _ => user
  | .followRecommendations user _ => user

end Event

end Herald
