import Herald.Failure
import Herald.Http.Exchange
import Herald.Json.Reader
import Herald.Room

/-!
# The room service

The state of a room is fetched from the room service. A room that the service does not find is no
failure; any other answer outside the 2xx class is, and so is a body that is no room.

Here is `room` of the client of the service (`fetch`).
-/

namespace Herald.RoomService

/-- The address of a room under the base address of the service. -/
def address (base : String) (room : RoomId) : String :=
  s!"{Http.trimSlashes base}/api/v1/rooms/{room}"

/-- The request for a room; none if its address is no web address. -/
def request? (base : String) (room : RoomId) : Option Http.Request :=
  (Url.parse? (address base room)).map fun url => { method := .get, url }

/-- What an answer says about a room. -/
def ofResponse (r : Http.Response) : Except Failure (Option Room) :=
  if r.status = Http.Status.notFound then .ok none
  else if !r.status.isSuccess then
    .error (.reported s!"Room service returned status {r.status.text}")
  else match (r.body.bind Source.ofOctets?).bind Room.ofSource? with
    | some room => .ok (some room)
    | none => .error (.reported s!"Failed to parse room state JSON: {Http.undecodable}")

/-- What is said when there is no answer. -/
def failure (f : Http.Failure) : Failure :=
  .reported s!"Room service request failed: {f.message}"

/-- The state of a room; nothing if there is no such room. -/
def fetch (transport : Http.Transport) (base : String) (room : RoomId) :
    Except Failure (Option Room) :=
  match request? base room with
  | none => .error (failure .unbuildable)
  | some request =>
    match transport request with
    | .error f => .error (failure f)
    | .ok response => ofResponse response

end Herald.RoomService
