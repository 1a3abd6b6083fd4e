import Herald.Event
import Herald.Text.Decimal

/-!
# Failures

Why a call to a collaborator failed, and why an event came to nothing. Every failure is a cause;
its wording is in one `message` function.

* `Limit`: the limit of `with_timeout`, whose failure is one of the callers'.
-/

namespace Herald

/-- The time a call may take, in microseconds. The clock moves in whole milliseconds. -/
structure Limit where
  micros : Nat
deriving DecidableEq, Repr

namespace Limit

/-- A limit of whole milliseconds. -/
def ofMillis (ms : Nat) : Limit := ⟨ms * 1000⟩

/-- The first millisecond at which the limit has run out. -/
def expiry (l : Limit) : Nat := (l.micros + 999) / 1000

/-- The limit in whole milliseconds, as it is shown. -/
def shown (l : Limit) : Nat := l.micros / 1000

@[simp] theorem expiry_ofMillis (ms : Nat) : (ofMillis ms).expiry = ms := by
  simp only [expiry, ofMillis]; omega

@[simp] theorem shown_ofMillis (ms : Nat) : (ofMillis ms).shown = ms := by
  simp only [shown, ofMillis]; omega

end Limit

/-- Why a call to a collaborator failed. -/
inductive Failure where
  /-- The collaborator said so. -/
  | reported (text : String)
  /-- The collaborator did not answer in time. -/
  | timedOut (operation : String) (limit : Limit)
deriving DecidableEq, Repr

namespace Failure

/-- The text of a failure. -/
def message : Failure → String
  | .reported text => text
  | .timedOut operation limit => s!"{operation} timed out after {Decimal.ofNat limit.shown}ms"

end Failure

/-- Errors that say that a call failed. -/
class OfFailure (ε : Type) where
  ofFailure : Failure → ε

export OfFailure (ofFailure)

instance : OfFailure Failure := ⟨id⟩

/-- Why a lookup in the settings store yields nothing. -/
inductive StoreError where
  /-- There is no such row. -/
  | notFound
  | failed (cause : Failure)
deriving DecidableEq, Repr

namespace StoreError

instance : OfFailure StoreError := ⟨failed⟩

/-- The text of an error. -/
def message : StoreError → String
  | .notFound => "not found"
  | .failed cause => cause.message

end StoreError

/-- Why a push was not accepted. -/
inductive DeliveryError where
  /-- The gateway no longer knows the device. -/
  | unregistered
  | failed (cause : Failure)
deriving DecidableEq, Repr

namespace DeliveryError

instance : OfFailure DeliveryError := ⟨failed⟩

/-- The text of an error. -/
def message : DeliveryError → String
  | .unregistered => "device unregistered"
  | .failed cause => cause.message

end DeliveryError

/-- Why no notification is built for an event. None of these is worth another attempt. -/
inductive BuildError where
  | privateRoom (room : RoomId)
  | emptyRoom (room : RoomId)
  | unknownRoom (room : RoomId)
  | actorLeftRoom (room : RoomId) (member : UserId)
  | notEnoughMembers (expected found : Nat)
  | unknownUser (user : UserId)
  | nothingToBuild (subject : String)
  | unexpectedEvent (kind : String)
  | lookup (cause : Failure)
deriving DecidableEq, Repr

namespace BuildError

instance : OfFailure BuildError := ⟨lookup⟩

/-- The text of an error. -/
def message : BuildError → String
  | .privateRoom room => s!"room {room} is private"
  | .emptyRoom room => s!"room {room} has no members"
  | .unknownRoom room => s!"room {room} not found"
  | .actorLeftRoom room member => s!"member {Decimal.ofId member} is no longer in room {room}"
  | .notEnoughMembers expected found => s!"expected at least {Decimal.ofNat expected} members, found {Decimal.ofNat found}"
  | .unknownUser user => s!"user {Decimal.ofId user} not found"
  | .nothingToBuild subject => s!"nothing to build for {subject}"
  | .unexpectedEvent kind => s!"no builder registered for {kind}"
  | .lookup cause => s!"lookup failed: {cause.message}"

end BuildError

/-- Why the recipients of an event are not known. -/
inductive ResolutionError where
  | settings (user : UserId) (cause : Failure)
  | followers (user : UserId) (cause : Failure)
  | activeUsers (cause : Failure)
deriving DecidableEq, Repr

namespace ResolutionError

/-- The text of an error. -/
def message : ResolutionError → String
  | .settings user cause => s!"Settings lookup for {Decimal.ofId user} failed: {cause.message}"
  | .followers user cause => s!"Follower lookup for {Decimal.ofId user} failed: {cause.message}"
  | .activeUsers cause => s!"Active user lookup failed: {cause.message}"

end ResolutionError

end Herald
