import Herald.Call
import Herald.Channel

/-!
# Cleaning up after dead devices

A device that the push gateway no longer knows is removed from the device store. Each delivery
worker has a sink for the tokens of such devices: they wait in a bounded queue and are removed one
at a time. How a removal ends makes no difference to the next one.

* `Sink.take?_cases`, `Sink.finish?_cases`: what the sink turns to, and what is left of it.

Here are `spawn` and `run` of the device lifecycle sink (`Sink`), and `redact`.
-/

namespace Herald.Cleanup

/-- As much of a token as may be shown: its first eight characters. -/
def redact (token : DeviceToken) : String := String.ofList (token.toList.take 8)

/-- What is said when a removal overruns. -/
def removalName : String := "device removal"

/-- The dead tokens of a worker. -/
structure Sink where
  queue : Channel DeviceToken
  /-- The removal under way. -/
  removal : Option (Pending Failure Unit) := none

namespace Sink

/-- A sink whose queue has `capacity` places, but at least one. -/
def create (capacity : Nat) : Sink := { queue := .create capacity }

/-- A sink that ended before anything was sent to it. -/
def ended (capacity : Nat) : Sink := { queue := (Channel.create capacity).close }

/-- Nothing is queued and no removal is under way. -/
def isIdle (s : Sink) : Bool := s.queue.items.isEmpty && s.removal.isNone

/-- Lets go of a sink: nothing more is sent to it. -/
def release (s : Sink) : Sink := { s with queue := s.queue.close }

/-- The sink was let go of and has removed everything. -/
def hasEnded (s : Sink) : Bool := s.queue.isClosed && s.isIdle

/-- Starts the removal of the oldest token, unless another one is under way. -/
def take? (limit : Limit) (reply : Reply Failure Unit) (now : Nat) (s : Sink) :
    Option (DeviceToken × Sink) :=
  match s.removal with
  | some _ => none
  | none =>
    match s.queue.receive? with
    | none => none
    | some (token, queue) => some (token, ⟨queue, some (.start now limit removalName reply)⟩)

/-- Ends the removal under way, if its time has come. -/
def finish? (now : Nat) (s : Sink) : Option Sink :=
  match s.removal with
  | some p => if p.isOver now then some { s with removal := none } else none
  | none => none

variable {limit : Limit} {reply : Reply Failure Unit} {now : Nat} {s t : Sink} {token : DeviceToken}

theorem take?_cases (h : s.take? limit reply now = some (token, t)) : s.removal = none ∧
    ∃ queue, s.queue.receive? = some (token, queue) ∧
      t = ⟨queue, some (.start now limit removalName reply)⟩ := by
  unfold take? at h
  split at h
  · cases h
  · next hn =>
    split at h
    · cases h
    · next queue hq => cases h; exact ⟨hn, queue, hq, rfl⟩

/-- However a removal ends, the same is left. -/
theorem finish?_cases (h : s.finish? now = some t) :
    ∃ p, s.removal = some p ∧ p.isOver now = true ∧ t = { s with removal := none } := by
  unfold finish? at h
  split at h
  · next p hp =>
    split at h <;> cases h
    exact ⟨p, hp, ‹_›, rfl⟩
  · cases h

end Sink

end Herald.Cleanup
