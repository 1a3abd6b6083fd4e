import Herald.Http.Status
import Herald.Http.Url
import Herald.Json.Value

/-!
# Requests and answers

A request that cannot be put together is never sent, and one that is sent may remain without an
answer; the body of an answer may break off.
-/

namespace Herald.Http

/-- What is asked. -/
inductive Method where
  | get
  | post
deriving DecidableEq, Repr

/-- The name of a method. -/
def Method.name : Method → String
  | .get => "GET"
  | .post => "POST"

/-- A request. -/
structure Request where
  method : Method
  url : Url
  /-- What the sender shows to be let in. -/
  authorization : Option String := none
  /-- A value that is sent along. -/
  body : Option Json := none

/-- An answer. -/
structure Response where
  status : Status
  /-- The octets of the body; none if it broke off. -/
  body : Option (List UInt8)
  /-- The text of octets in the encoding that the answer names. If it names none, that is UTF-8. -/
  decode : List UInt8 → String := Utf8.text

/-- Why there is no answer. -/
inductive Failure where
  /-- The request cannot be put together. -/
  | unbuildable
  /-- No answer came, or not in time. -/
  | unanswered
deriving DecidableEq, Repr

/-- The text of a failure. -/
def Failure.message : Failure → String
  | .unbuildable => "builder error"
  | .unanswered => "error sending request"

/-- What is said when a body is not what it should be, or broke off. -/
def undecodable : String := "error decoding response body"

/-- What comes of sending a request. -/
abbrev Transport := Request → Except Failure Response

/-- A text that can stand in a header: no control character but the tab. -/
def isHeaderText (s : String) : Bool :=
  s.toList.all fun c => c = '\t' || (0x20 ≤ c.toNat && c.toNat ≠ 0x7f)

/-- A base address without the slashes at its end. -/
def trimSlashes (s : String) : String :=
  String.ofList (s.toList.reverse.dropWhile (· = '/')).reverse

end Herald.Http
