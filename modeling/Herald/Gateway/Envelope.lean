import Herald.Notification.Codec

/-!
# What the push gateway is sent

The notification travels as text in the data of the message. Its collapse key is given to both
device platforms, so that a later message of the same key takes the place of an earlier one.

Here is `fcm_request` (`Envelope.ofNotification`).
-/

namespace Herald.Gateway

/-- A message to one device. -/
structure Envelope where
  token : DeviceToken
  /-- The text of the notification. -/
  payload : String
  collapseKey : Option String
deriving DecidableEq, Repr

namespace Envelope

/-- The name of the notification among the data of a message. -/
def payloadKey : String := "notification"

/-- The message that brings a notification to a device. -/
def ofNotification (token : DeviceToken) (n : Notification) : Envelope :=
  ⟨token, n.encode, n.collapseKey⟩

/-- The message as a value. -/
def toJson (e : Envelope) : Json :=
  let collapse := match e.collapseKey with
    | some key => [("android", .object [("collapse_key", .text key)]),
        ("apns", .object [("headers", .object [("apns-collapse-id", .text key)])])]
    | none => []
  .object [("message", .object ([("token", .text e.token),
    ("data", .object [(payloadKey, .text e.payload)])] ++ collapse))]

end Envelope

end Herald.Gateway
