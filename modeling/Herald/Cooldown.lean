import Herald.Cache

/-!
# Cooldowns

The same notification is not sent twice to the same user within a while. What counts as the same
is told by the collapse key, so whatever the gateway would collapse is also what is suppressed. A
cache that fails suppresses nothing.

Here are `should_send` (`shouldSend`), `record_sent` (`recordSent`) and `cooldown` (`window?`) of
the rate limiter, and `limiter_key` (`key`).
-/

namespace Herald.Cooldown

/-- Notifications that share their cooldowns. -/
inductive Class where
  | roomActivity
  | roomInvite
deriving DecidableEq, Repr

/-- The name of a class in keys. -/
def Class.name : Class → String
  | .roomActivity => "room"
  | .roomInvite => "room_invite"

/-- The key of a user's cooldown by the name of its class and its context. -/
def keyOf (user : UserId) (className context : String) : String :=
  s!"notification_limiter:{Decimal.ofId user}:{className}:{context}"

/-- The key of a user's cooldown in a class and a context. -/
def key (user : UserId) (c : Class) (context : String) : String := keyOf user c.name context

/-- How long the cooldowns of each class last, in milliseconds. -/
structure Durations where
  roomActivity : Nat
  roomInvite : Nat
deriving DecidableEq, Repr

namespace Durations

/-- Durations in whole seconds. -/
def ofSeconds (roomActivity roomInvite : Nat) : Durations := ⟨roomActivity * 1000, roomInvite * 1000⟩

/-- How long a cooldown of a class lasts. -/
def get (d : Durations) : Class → Nat
  | .roomActivity => d.roomActivity
  | .roomInvite => d.roomInvite

end Durations

/-- The class of a category; none if its notifications are never suppressed. -/
def classOf : Category → Option Class
  | .newFollower | .followRecommendations => none
  | .roomInvite => some .roomInvite
  | .newRoom | .roomJoined | .welcomeRoom => some .roomActivity

/-- A cooldown that applies to a notification: its key and how long it lasts. -/
structure Window where
  key : String
  ttl : Nat
deriving DecidableEq, Repr

/-- The cooldown of a notification for a recipient, unless it is never suppressed. -/
def window? (d : Durations) (user : UserId) (n : Notification) : Option Window := do
  let c ← classOf n.category
  let context ← n.collapseKey
  pure ⟨key user c context, d.get c⟩

/-- What is said when a call to the cache overruns. -/
def checkName : String := "rate limit check"

/-- What is said when a call to the cache overruns. -/
def recordName : String := "rate limit record"

/-- A notification may go out unless the cache knows of a cooldown. -/
def allows : Except Failure Bool → Bool
  | .ok marked => !marked
  | .error _ => true

/-- Whether a notification may go out to a user, with the calls made to find out. -/
def shouldSend (d : Durations) (limit : Limit) (reply : Reply Failure Unit) (user : UserId)
    (n : Notification) (s : ClockedCache) : Bool × List Call × ClockedCache :=
  match window? d user n with
  | none => (true, [], s)
  | some w =>
    let r := s.perform limit checkName reply fun now c => (c.isMarked now w.key, c)
    (allows r.1, [.markExists w.key], r.2)

/-- Notes that a notification went out to a user, with the calls made. -/
def recordSent (d : Durations) (limit : Limit) (reply : Reply Failure Unit) (user : UserId)
    (n : Notification) (s : ClockedCache) : List Call × ClockedCache :=
  match window? d user n with
  | none => ([], s)
  | some w =>
    let r := s.perform limit recordName reply fun now c => ((), c.setMark w.key (now + w.ttl))
    ([.setMark w.key w.ttl], r.2)

end Herald.Cooldown
