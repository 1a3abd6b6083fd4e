import Herald.Gateway.Envelope
import Herald.Proofs.Json.Reading

/-!
# What a request holds

The gateway reads a request as a value and finds the parts of the message by their paths.

* `Source.valuesAt`: all that a value holds at a path.
* `Envelope.valuesAt_payload`: the text of the notification.
* `Envelope.valuesAt_collapse`: what the gateway collapses by.
-/

namespace Herald

/-- What a value holds at a path of names. A member that is given twice is held twice. -/
def Source.valuesAt : List String → Source → List Source
  | [], s => [s]
  | name :: path, .object members =>
    (members.filter (·.1 == some name)).flatMap fun m => valuesAt path m.2
  | _, _ => []

namespace Gateway.Envelope

/-- What the request that carries a message says. -/
def request (e : Envelope) : Source := e.toJson.toSource

theorem isPlain_toJson (e : Envelope) : e.toJson.isPlain = true := by
  unfold toJson
  cases e.collapseKey <;> rfl

/-- A request is read as it was written. -/
theorem ofText?_toJson (e : Envelope) : Source.ofText? e.toJson.compact = some e.request :=
  Source.ofText?_compact e.isPlain_toJson

theorem valuesAt_payload (e : Envelope) :
    e.request.valuesAt ["message", "data", "notification"] = [.text (some e.payload)] := by
  unfold request toJson
  cases e.collapseKey <;> rfl

/-- Where a request names what the gateway collapses by, for either platform. -/
def collapsePaths : List (List String) :=
  [["message", "android", "collapse_key"], ["message", "apns", "headers", "apns-collapse-id"]]

/-- A message with a collapse key gives it to both platforms, and one without has no such part. -/
theorem valuesAt_collapse (e : Envelope) {path : List String} (h : path ∈ collapsePaths) :
    e.request.valuesAt path = e.collapseKey.toList.map fun key => .text (some key) := by
  unfold request toJson
  rcases List.mem_cons.1 h with rfl | h
  · cases e.collapseKey <;> rfl
  · cases List.mem_singleton.1 h
    cases e.collapseKey <;> rfl

end Gateway.Envelope

end Herald
