import Herald.Event.Codec
import Herald.Text.Blank

/-!
# Rooms

The state of a room as the room directory reports it.

Here is `display_name` of a room (`Room.displayName`).
-/

namespace Herald

/-- A member of a room. -/
structure Member where
  id : UserId
  name : String
deriving DecidableEq, Repr

/-- The state of a room; its members in the directory's order. -/
structure Room where
  id : RoomId
  name : Option String := none
  members : List Member := []
deriving DecidableEq, Repr

open Source

/-- A member as a value. -/
def Member.toJson (m : Member) : Json :=
  .object [("id", Json.ofId m.id), ("display_name", .text m.name)]

/-- The member that a source is. -/
def Member.ofSource? (s : Source) : Option Member := do
  match ← fields? ["id", "display_name"] 2 s with
  | [some id, some name] => pure ⟨← id? id, ← text? name⟩
  | _ => none

namespace Room

/-- The name to show: the room's name without white space around it, unless nothing is left. -/
def displayName (r : Room) : Option String :=
  (r.name.map Text.trim).filter (· != "")

/-- A room as a value. -/
def toJson (r : Room) : Json :=
  .object [("id", .text r.id), ("name", (r.name.map Json.text).getD .null),
    ("members", .list (r.members.map Member.toJson))]

/-- The room that a source is. -/
def ofSource? (s : Source) : Option Room := do
  match ← fields? ["id", "name", "members"] 1 s with
  | [some id, name, members] =>
    pure {
      id := ← text? id
      name := ← defaulted? none (orNull? text?) name
      members := ← defaulted? [] (list? Member.ofSource?) members }
  | _ => none

end Room

end Herald
