import Herald.Notification
import Herald.Event.Codec

/-!
# The written form of notifications

A push message as the device receives it, and a history entry as it is kept. Both end with the
free-form arguments, which may be missing.
-/

namespace Herald

open Source

/-- The category that a source names. -/
def Category.ofSource? : Source → Option Category := enumeration? .strict Category.ofName?

/-- The name of a category, in quotes. -/
def Category.encode (c : Category) : String := (Json.text c.name).compact

namespace Alert

/-- An alert as a value. -/
def toJson (a : Alert) : Json :=
  .object [("body-loc-key", .text a.key), ("body-loc-args", .list (a.arguments.map .text))]

/-- The alert that a source is. -/
def ofSource? (s : Source) : Option Alert := do
  match ← fields? ["body-loc-key", "body-loc-args"] 2 s with
  | [some key, some arguments] => pure ⟨← text? key, ← list? text? arguments⟩
  | _ => none

end Alert

/-- The arguments of a record: one level below it, and empty if missing. -/
def Arguments.ofField? : Option Source → Option Arguments :=
  defaulted? ∅ (arguments? (maxDepth - 1))

namespace Notification

/-- A notification as a value. -/
def toJson (n : Notification) : Json :=
  .object [("category", .text n.category.name), ("alert", n.alert.toJson),
    ("arguments", n.arguments.toJson)]

/-- The text of a notification. -/
def encode (n : Notification) : String := n.toJson.compact

/-- The notification that a source is, without collapse key and origin. -/
def ofSource? (s : Source) : Option Notification := do
  match ← fields? ["category", "alert", "arguments"] 2 s with
  | [some category, some alert, arguments] =>
    pure {
      category := ← Category.ofSource? category
      alert := ← Alert.ofSource? alert
      arguments := ← Arguments.ofField? arguments }
  | _ => none

/-- The notification of a text. -/
def decode? (text : String) : Option Notification := (ofText? text).bind ofSource?

end Notification

namespace StoredNotification

/-- A history entry as a value. -/
def toJson (n : StoredNotification) : Json :=
  .object [("timestamp", Json.ofId n.timestamp), ("from", Json.ofId n.sender),
    ("category", .text n.category.name), ("arguments", n.arguments.toJson)]

/-- The text of a history entry. -/
def encode (n : StoredNotification) : String := n.toJson.compact

/-- The history entry that a source is. -/
def ofSource? (s : Source) : Option StoredNotification := do
  match ← fields? ["timestamp", "from", "category", "arguments"] 3 s with
  | [some timestamp, some sender, some category, arguments] =>
    pure {
      timestamp := ← id? timestamp
      sender := ← id? sender
      category := ← Category.ofSource? category
      arguments := ← Arguments.ofField? arguments }
  | _ => none

/-- The history entry of a text. -/
def decode? (text : String) : Option StoredNotification := (ofText? text).bind ofSource?

end StoredNotification

end Herald
