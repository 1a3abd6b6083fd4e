import Herald.Event
import Herald.Json.Value

/-!
# Notifications

A notification names a template and its positional arguments; the device turns it into words.

Here is `is_storable` (`Category.isStorable`).
-/

namespace Herald

/-- What a notification is about. -/
inductive Category where
  | newFollower
  | newRoom
  | roomJoined
  | roomInvite
  | welcomeRoom
  | followRecommendations
deriving DecidableEq, Repr

namespace Category

/-- Every category. -/
def all : List Category :=
  [.newFollower, .newRoom, .roomJoined, .roomInvite, .welcomeRoom, .followRecommendations]

/-- The name of a category in notifications. -/
def name : Category → String
  | .newFollower => "NEW_FOLLOWER"
  | .newRoom => "NEW_ROOM"
  | .roomJoined => "ROOM_JOINED"
  | .roomInvite => "ROOM_INVITE"
  | .welcomeRoom => "WELCOME_ROOM"
  | .followRecommendations => "FOLLOW_RECOMMENDATIONS"

/-- The category of that name. -/
def ofName? (s : String) : Option Category := all.find? (·.name == s)

theorem ofName?_name (c : Category) : ofName? c.name = some c := by cases c <;> decide

/-- Categories that are kept in the history. -/
def isStorable : Category → Bool
  | .newFollower | .welcomeRoom => true
  | _ => false

end Category

/-- A template and its arguments. -/
structure Alert where
  key : String
  arguments : List String
deriving DecidableEq, Repr

/-- A push message. -/
structure Notification where
  category : Category
  alert : Alert
  arguments : Arguments := ∅
  /-- What the gateway collapses by, and the context in which repeats are suppressed. It is not
  part of the message's own form. -/
  collapseKey : Option String := none
  /-- The user whose action produced the notification. It is not part of the message's own form. -/
  origin : Option UserId := none

/-- An entry of a user's history. -/
structure StoredNotification where
  /-- Seconds since 1970. -/
  timestamp : Int64
  /-- The user whose action produced the notification. -/
  sender : UserId
  category : Category
  arguments : Arguments := ∅

end Herald
