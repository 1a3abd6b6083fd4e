import Herald.Failure
import Herald.Http.Exchange
import Herald.Json.Reader
import Herald.Json.Record
import Herald.Text.Utf16

/-!
# What the push gateway answers

A push was accepted exactly when the status is of the 2xx class. Otherwise the body may hold a
`Complaint`; it says that the device is gone if some detail has the code `UNREGISTERED`, or if the
HTTP status is 404 and the complaint's own status is `NOT_FOUND`. A 404 without such a body is not a
verdict on the device.

Here are `is_unregistered` (`Complaint.isUnregistered`), and what `send` makes of an answer
(`verdict`).
-/

namespace Herald.Gateway

/-- What the gateway has to say against a message. -/
structure Complaint where
  status : Option String
  message : Option String
  /-- The error codes of the details. -/
  codes : List (Option String)
deriving DecidableEq, Repr

namespace Complaint

open Source

/-- The code of a detail. -/
def code? (s : Source) : Option (Option String) := do
  match ← fields? ["errorCode"] 0 s with
  | [code] => defaulted? none (orNull? text?) code
  | _ => none

/-- The complaint that a source is. -/
def ofError? (s : Source) : Option Complaint := do
  match ← fields? ["status", "message", "details"] 0 s with
  | [status, message, details] =>
    pure ⟨← defaulted? none (orNull? text?) status, ← defaulted? none (orNull? text?) message,
      ← defaulted? [] (list? code?) details⟩
  | _ => none

/-- The complaint in a body. -/
def ofSource? (s : Source) : Option Complaint := do
  match ← fields? ["error"] 1 s with
  | [some error] => ofError? error
  | _ => none

/-- Some detail says that the device is not registered. -/
def isUnregistered (c : Complaint) : Bool := c.codes.any (· == some "UNREGISTERED")

/-- The complaint in a text. -/
def ofText? (s : String) : Option Complaint := (Source.ofOctets? (Utf8.encode s)).bind ofSource?

/-- The complaint came with a status and says that the device is gone. -/
def isVerdict (c : Complaint) (s : Http.Status) : Bool :=
  c.isUnregistered || (s = Http.Status.notFound && c.status = some "NOT_FOUND")

/-- The reason that the complaint gives. -/
def reason? (c : Complaint) : Option String := c.message <|> c.status

end Complaint

/-- Octets as text. A mark at their start may say how they are encoded, and is left out then; otherwise it is
for `decode` to say. -/
def marked (decode : List UInt8 → String) : List UInt8 → String
  | 0xEF :: 0xBB :: 0xBF :: rest => Utf8.text rest
  | 0xFF :: 0xFE :: rest => Utf8.mend (Utf16.decode .little rest)
  | 0xFE :: 0xFF :: rest => Utf8.mend (Utf16.decode .big rest)
  | body => decode body

/-- The body of an answer as text. A body that broke off counts as empty. -/
def bodyText (r : Http.Response) : String := marked r.decode (r.body.getD [])

/-- What an answer says about a message. -/
def verdict (r : Http.Response) : Except DeliveryError Unit :=
  if r.status.isSuccess then .ok ()
  else
    let body := bodyText r
    match Complaint.ofText? body with
    | some c =>
      if c.isVerdict r.status then .error .unregistered
      else .error (rejected r.status (c.reason?.getD body))
    | none => .error (rejected r.status body)
where
  /-- The error of an answer with a reason. -/
  rejected (s : Http.Status) (reason : String) : DeliveryError :=
    .failed (.reported s!"FCM request failed with {s.text}: {reason}")

end Herald.Gateway
