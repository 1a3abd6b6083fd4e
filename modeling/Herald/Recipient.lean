import Herald.Event.Codec

/-!
# Recipients

Users together with what they want to hear about.

Here are `from_code` (`RoomFrequency.ofCode`) and, of a target, `with_defaults` and
`wants_room_notifications` (`Recipient.wantsRooms`).
-/

namespace Herald

/-- How often a user wants to hear about rooms. Only `off` makes a difference. -/
inductive RoomFrequency where
  | off
  | infrequent
  | normal
  | frequent
deriving DecidableEq, Repr

namespace RoomFrequency

/-- The frequency of a settings code; unknown codes count as normal. -/
def ofCode (code : Int) : RoomFrequency :=
  if code = 0 then .off
  else if code = 1 then .infrequent
  else if code = 3 then .frequent
  else .normal

/-- The name of a frequency. -/
def name : RoomFrequency → String
  | .off => "off"
  | .infrequent => "infrequent"
  | .normal => "normal"
  | .frequent => "frequent"

/-- The frequency of that name. -/
def ofName? (s : String) : Option RoomFrequency :=
  [RoomFrequency.off, .infrequent, .normal, .frequent].find? (·.name == s)

end RoomFrequency

/-- A user who may be notified, with their preferences. -/
structure Recipient where
  user : UserId
  roomFrequency : RoomFrequency
  wantsFollows : Bool
  wantsWelcomes : Bool
deriving DecidableEq, Repr

namespace Recipient

/-- The preferences of a user who never saved any. -/
def withDefaults (user : UserId) : Recipient := ⟨user, .normal, true, true⟩

/-- The user wants to hear about rooms. -/
def wantsRooms (r : Recipient) : Bool := r.roomFrequency != .off

/-- A recipient as a value. -/
def toJson (r : Recipient) : Json :=
  .object [("user_id", Json.ofId r.user), ("room_frequency", .text r.roomFrequency.name),
    ("notify_on_follow", .bool r.wantsFollows), ("notify_on_welcome_room", .bool r.wantsWelcomes)]

open Source in
/-- The recipient that a source is. -/
def ofSource? (s : Source) : Option Recipient := do
  match ← fields? ["user_id", "room_frequency", "notify_on_follow", "notify_on_welcome_room"] 4 s with
  | [some user, some frequency, some follows, some welcomes] =>
    pure ⟨← id? user, ← enumeration? .strict RoomFrequency.ofName? frequency, ← bool? follows,
      ← bool? welcomes⟩
  | _ => none

end Recipient

end Herald
