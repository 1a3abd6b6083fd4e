import Herald.Event
import Herald.Json.Printer
import Herald.Json.Reader
import Herald.Json.Record

/-!
# Events on the queues

An event travels as `{"type": kind, "params": {...}}`. It may also arrive as a list of the two;
`params` is an object in either form. Members may come in any order; when `params` comes before
`type`, its parts have to be kept until the kind is known, so all of them are asked for.

* `Event.encode`: the text that is published.
* `Event.decode?`: the event of a payload.
-/

namespace Herald.Event

/-- The parameters of an event, in the order in which they are written. -/
def params : Event → List (String × Json)
  | .newFollower follower followee => [("follower", Json.ofId follower), ("followee", Json.ofId followee)]
  | .roomCreation room creator visibility =>
    [("room", .text room), ("creator", Json.ofId creator), ("visibility", .text visibility.name)]
  | .roomJoin room member visibility =>
    [("room", .text room), ("creator", Json.ofId member), ("visibility", .text visibility.name)]
  | .roomInvite room host guest =>
    [("room", .text room), ("from", Json.ofId host), ("target", Json.ofId guest)]
  | .welcomeRoom user room => [("user", Json.ofId user), ("room", .text room)]
  | .followRecommendations user accounts =>
    [("user", Json.ofId user), ("recommendations", .list (accounts.map Json.ofId))]

/-- The event as a value. -/
def toJson (e : Event) : Json :=
  .object [("type", .text e.kind.name), ("params", .object e.params)]

/-- The text of an event. -/
def encode (e : Event) : String := e.toJson.compact

/-- The names of the parameters of a kind. -/
def paramNames : EventKind → List String
  | .newFollower => ["follower", "followee"]
  | .roomCreation => ["room", "creator", "visibility"]
  | .roomJoin => ["room", "creator", "visibility"]
  | .roomInvite => ["room", "from", "target"]
  | .welcomeRoom => ["user", "room"]
  | .followRecommendations => ["user", "recommendations"]

open Source in
/-- The event of a kind with the given parameters. -/
def ofParams? (spelling : Spelling) (kind : EventKind) (params : Source) : Option Event := do
  let visibility? := enumeration? spelling Visibility.ofName?
  match kind, ← objectFields? (paramNames kind) params with
  | .newFollower, [some follower, some followee] =>
    pure (.newFollower (← id? follower) (← id? followee))
  | .roomCreation, [some room, some creator, some visibility] =>
    pure (.roomCreation (← text? room) (← id? creator) (← visibility? visibility))
  | .roomJoin, [some room, some member, some visibility] =>
    pure (.roomJoin (← text? room) (← id? member) (← visibility? visibility))
  | .roomInvite, [some room, some host, some guest] =>
    pure (.roomInvite (← text? room) (← id? host) (← id? guest))
  | .welcomeRoom, [some user, some room] => pure (.welcomeRoom (← id? user) (← text? room))
  | .followRecommendations, [some user, some accounts] =>
    pure (.followRecommendations (← id? user) (← list? id? accounts))
  | _, _ => none

/-- The kind that a source names. -/
def kind? (s : Source) : Option EventKind := s.enumeration? .strict EventKind.ofName?

/-- Whether all parts of parameters that have to be kept can be: they are valid, and one level
below the event they are nested at most to the greatest depth. -/
def keepable (params : Source) : Bool :=
  params.json?.isSome && params.depth + 1 ≤ Source.maxDepth

/-- The event that a source is. -/
def ofSource? : Source → Option Event
  | .list [kind, params] => do ofParams? .strict (← kind? kind) params
  | .object members => do
    let names ← Source.names? members
    match ← Source.member? members "type", ← Source.member? members "params" with
    | some kind, some params =>
      if names.idxOf "type" < names.idxOf "params" then ofParams? .strict (← kind? kind) params
      else if keepable params then ofParams? .loose (← kind? kind) params
      else none
    | _, _ => none
  | _ => none

/-- The event of a payload. -/
def decode? (payload : List UInt8) : Option Event := (Source.ofOctets? payload).bind ofSource?

end Herald.Event
