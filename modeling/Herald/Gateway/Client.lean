import Herald.Gateway.Envelope
import Herald.Gateway.Verdict

/-!
# Sending to the push gateway

A message to one device is one request, which shows the gateway a token of access. The token is configured, or
it is asked for and may not be obtained.

Here are `send` and `bearer` (`Account.accessToken`) of the client of the gateway.
-/

namespace Herald.Gateway

/-- Where and as whom messages are sent. -/
structure Account where
  endpoint : String
  project : String
  /-- The token of access, or why none was obtained. -/
  accessToken : Except String String

namespace Account

/-- The address to which messages are sent. -/
def address (a : Account) : String :=
  s!"{Http.trimSlashes a.endpoint}/v1/projects/{a.project}/messages:send"

/-- What the gateway is shown. -/
def authorization (token : String) : String := s!"Bearer {token}"

end Account

/-- What is said when there is no answer. -/
def failure (f : Http.Failure) : DeliveryError :=
  .failed (.reported s!"FCM request failed: {f.message}")

/-- The request that carries a message. There is none without a token of access, nor if the address is no web
address or the token cannot stand in a header. -/
def Account.request (a : Account) (e : Envelope) : Except DeliveryError Http.Request :=
  match a.accessToken with
  | .error s => .error (.failed (.reported s!"Failed to obtain FCM access token: {s}"))
  | .ok token =>
    match Url.parse? a.address with
    | none => .error (failure .unbuildable)
    | some url =>
      if Http.isHeaderText (authorization token) then
        .ok { method := .post, url, authorization := some (authorization token), body := some e.toJson }
      else .error (failure .unbuildable)

/-- Sends a notification to a device. -/
def send (transport : Http.Transport) (a : Account) (token : DeviceToken) (n : Notification) :
    Except DeliveryError Unit :=
  match a.request (.ofNotification token n) with
  | .error error => .error error
  | .ok request =>
    match transport request with
    | .error f => .error (failure f)
    | .ok response => verdict response

end Herald.Gateway
