import Herald.Failure
import Herald.Notification
import Herald.Recipient
import Herald.Room

/-!
# Calls to collaborators

A collaborator's `Reply` is fixed when the call starts: how long it takes and what it says. A call
under a limit ends with that answer if it comes in time, and with a timeout at the expiry of the
limit otherwise.

`Timed α` is a computation that takes time and makes calls. One after the other, times add up; side
by side, the longer one counts.

* `elapsed_both`, `elapsed_all_le`, `le_elapsed_all`: what runs side by side takes as long as its
  longest part.

Here is `with_timeout` (`Timed.call`), and a `Call` for each operation of the stores.
-/

namespace Herald

/-- A call to a collaborator, by what is asked of it. -/
inductive Call where
  | displayName (user : UserId)
  | room (room : RoomId)
  | settings (user : UserId)
  | followers (user : UserId)
  | activeUsers (limit : Int64)
  | devices (user : UserId)
  | removeDevice (token : DeviceToken)
  | markExists (key : String)
  | setMark (key : String) (ttl : Nat)
  | pushEntry (key : String) (cap : Nat)
  | readEntries (key : String)
  | recommend (user : UserId) (limit : Int64)
  | candidates (limit : Int64)
  | publish (queue : String) (event : Event)
deriving DecidableEq, Repr

/-- What a collaborator says to a call, and after how many milliseconds. -/
structure Reply (ε α : Type) where
  delay : Nat
  answer : Except ε α

namespace Reply

variable {ε α β : Type}

/-- A reply without delay. -/
def now (a : α) : Reply ε α := ⟨0, .ok a⟩

/-- The reply with another value. -/
def map (f : α → β) (r : Reply ε α) : Reply ε β := ⟨r.delay, r.answer.map f⟩

variable [OfFailure ε]

/-- What a call under a limit ends with, and after how many milliseconds. -/
def within (limit : Limit) (operation : String) (r : Reply ε α) : Reply ε α :=
  if r.delay ≤ limit.expiry then r
  else ⟨limit.expiry, .error (ofFailure (.timedOut operation limit))⟩

theorem delay_within_le (limit : Limit) (operation : String) (r : Reply ε α) :
    (r.within limit operation).delay ≤ limit.expiry := by
  unfold within; split
  · assumption
  · exact Nat.le_refl _

end Reply

/-- A call under way: when it ends, and with what. -/
structure Pending (ε α : Type) where
  due : Nat
  answer : Except ε α

namespace Pending

variable {ε α : Type}

/-- The call has ended. -/
def isOver (now : Nat) (p : Pending ε α) : Bool := p.due ≤ now

/-- A call that starts now, under a limit. -/
def start [OfFailure ε] (now : Nat) (limit : Limit) (operation : String) (r : Reply ε α) :
    Pending ε α :=
  let bounded := r.within limit operation
  ⟨now + bounded.delay, bounded.answer⟩

theorem due_start_le [OfFailure ε] (now : Nat) (limit : Limit) (operation : String)
    (r : Reply ε α) : (start now limit operation r).due ≤ now + limit.expiry :=
  Nat.add_le_add_left (r.delay_within_le limit operation) now

end Pending

/-- A computation that takes time and makes calls. -/
structure Timed (α : Type) where
  value : α
  /-- Milliseconds from start to end. -/
  elapsed : Nat := 0
  /-- The calls made, in the order in which they are written down. -/
  calls : List Call := []

namespace Timed

variable {α β ε : Type}

instance : Monad Timed where
  pure a := ⟨a, 0, []⟩
  bind t f :=
    let u := f t.value
    ⟨u.value, t.elapsed + u.elapsed, t.calls ++ u.calls⟩

/-- One call under a limit. -/
def call [OfFailure ε] (limit : Limit) (operation : String) (c : Call) (r : Reply ε α) :
    Timed (Except ε α) :=
  let done := r.within limit operation
  ⟨done.answer, done.delay, [c]⟩

/-- Two computations side by side. -/
def both (t : Timed α) (u : Timed β) : Timed (α × β) :=
  ⟨(t.value, u.value), max t.elapsed u.elapsed, t.calls ++ u.calls⟩

/-- Any number of computations side by side. -/
def all : List (Timed α) → Timed (List α)
  | [] => ⟨[], 0, []⟩
  | t :: ts =>
    let rest := all ts
    ⟨t.value :: rest.value, max t.elapsed rest.elapsed, t.calls ++ rest.calls⟩

@[simp] theorem value_pure (a : α) : (pure a : Timed α).value = a := rfl

@[simp] theorem elapsed_pure (a : α) : (pure a : Timed α).elapsed = 0 := rfl

@[simp] theorem value_bind (t : Timed α) (f : α → Timed β) : (t >>= f).value = (f t.value).value := rfl

@[simp] theorem elapsed_bind (t : Timed α) (f : α → Timed β) :
    (t >>= f).elapsed = t.elapsed + (f t.value).elapsed := rfl

@[simp] theorem calls_bind (t : Timed α) (f : α → Timed β) :
    (t >>= f).calls = t.calls ++ (f t.value).calls := rfl

theorem value_call [OfFailure ε] (limit : Limit) (operation : String) (c : Call) (r : Reply ε α) :
    (call limit operation c r).value = (r.within limit operation).answer := rfl

@[simp] theorem value_both (t : Timed α) (u : Timed β) : (t.both u).value = (t.value, u.value) := rfl

@[simp] theorem calls_both (t : Timed α) (u : Timed β) : (t.both u).calls = t.calls ++ u.calls := rfl

@[simp] theorem elapsed_both (t : Timed α) (u : Timed β) :
    (t.both u).elapsed = max t.elapsed u.elapsed := rfl

theorem value_all (ts : List (Timed α)) : (all ts).value = ts.map (·.value) := by
  induction ts with
  | nil => rfl
  | cons t ts ih => simp [all, ih]

theorem calls_all (ts : List (Timed α)) : (all ts).calls = ts.flatMap (·.calls) := by
  induction ts with
  | nil => rfl
  | cons t ts ih => simp [all, ih]

theorem elapsed_all_le {ts : List (Timed α)} {n : Nat} (h : ∀ t ∈ ts, t.elapsed ≤ n) :
    (all ts).elapsed ≤ n := by
  induction ts with
  | nil => exact Nat.zero_le n
  | cons t ts ih =>
    exact Nat.max_le.2 ⟨h t (by simp), ih fun u hu => h u (by simp [hu])⟩

theorem le_elapsed_all {ts : List (Timed α)} {t : Timed α} (h : t ∈ ts) :
    t.elapsed ≤ (all ts).elapsed := by
  induction ts with
  | nil => cases h
  | cons u ts ih =>
    rcases List.mem_cons.1 h with rfl | h
    · exact Nat.le_max_left ..
    · exact Nat.le_trans (ih h) (Nat.le_max_right ..)

theorem elapsed_call_le [OfFailure ε] (limit : Limit) (operation : String) (c : Call)
    (r : Reply ε α) : (call limit operation c r).elapsed ≤ limit.expiry :=
  r.delay_within_le limit operation

end Timed

end Herald
