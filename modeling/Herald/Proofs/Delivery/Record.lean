import Herald.Delivery
import Herald.Proofs.Trace
import Mathlib.Data.List.Basic

/-!
# The record of an errand

What a log says about one errand: whether it was suppressed, what the lookup of its devices came to,
which messages were sent and which of them were answered. Errands are told apart by their keys.

* `Record.of`: the record of the errand with a key.
* `Record.of_append`, `Record.of_others`: a record grows by what is written down about its errand.
-/

namespace Herald.Delivery

/-- An errand is told apart by its job and its position in there. -/
def Errand.key (e : Errand) : Nat × Nat := (e.job, e.position)

namespace Happening

/-- The errand that it is about. -/
def errand? : Happening → Option Errand
  | began e | checked e _ | found e _ | sent e _ _ | answered e _ _ _ | ended e => some e
  | called _ => none

def verdict? : Happening → Option (Except Failure Bool)
  | checked _ marked => some marked
  | _ => none

def lookup? : Happening → Option (Except Failure (List DeviceToken))
  | found _ answer => some answer
  | _ => none

/-- The device to which a message was sent, with its position in the list of devices. -/
def target? : Happening → Option (DeviceToken × Nat)
  | sent _ index token => some (token, index)
  | _ => none

/-- The device whose message was answered, with its position in the list of devices. -/
def reply? : Happening → Option (DeviceToken × Nat)
  | answered _ index token _ => some (token, index)
  | _ => none

def ended? : Happening → Option Errand
  | ended e => some e
  | _ => none

/-- What is said of one kind about the errand with a key. -/
def about {α : Type} (key : Nat × Nat) (f : Happening → Option α) (h : Happening) : Option α :=
  if h.errand?.any (·.key == key) then f h else none

end Happening

open Happening

/-- What has been written down about an errand; each list has what came first in front. -/
structure Record where
  /-- What the cache said about a cooldown. -/
  verdicts : List (Except Failure Bool) := []
  /-- What the lookups of devices came to. -/
  answers : List (Except Failure (List DeviceToken)) := []
  /-- The devices to which messages were sent. -/
  attempts : List (DeviceToken × Nat) := []
  /-- The devices whose messages were answered. -/
  replies : List (DeviceToken × Nat) := []
  endings : List Errand := []

namespace Record

instance : Append Record where
  append r new := {
    verdicts := r.verdicts ++ new.verdicts
    answers := r.answers ++ new.answers
    attempts := r.attempts ++ new.attempts
    replies := r.replies ++ new.replies
    endings := r.endings ++ new.endings }

/-- The record of the errand with a key. -/
def of (key : Nat × Nat) (log : List Happening) : Record where
  verdicts := pick (about key verdict?) log
  answers := pick (about key lookup?) log
  attempts := pick (about key target?) log
  replies := pick (about key reply?) log
  endings := pick (about key ended?) log

theorem append_def (r new : Record) : r ++ new = {
    verdicts := r.verdicts ++ new.verdicts
    answers := r.answers ++ new.answers
    attempts := r.attempts ++ new.attempts
    replies := r.replies ++ new.replies
    endings := r.endings ++ new.endings } := rfl

@[simp] theorem append_empty (r : Record) : r ++ ({} : Record) = r := by simp [append_def]

@[simp] theorem empty_append (r : Record) : ({} : Record) ++ r = r := rfl

theorem append_assoc (r s t : Record) : r ++ s ++ t = r ++ (s ++ t) := by simp [append_def]

variable {key : Nat × Nat} {e : Errand}

@[simp] theorem of_nil : of key [] = {} := rfl

theorem of_append (new log : List Happening) : of key (new ++ log) = of key log ++ of key new := by
  simp [of, append_def]

theorem of_cons (h : Happening) (log : List Happening) :
    of key (h :: log) = of key log ++ of key [h] := of_append [h] log

/-- What is about other errands does not appear in a record. -/
theorem of_others {log : List Happening}
    (h : ∀ a ∈ log, ∀ e, a.errand? = some e → e.key ≠ key) : of key log = {} := by
  have hn {α : Type} (f : Happening → Option α) : pick (about key f) log = [] := by
    refine pick_eq_nil fun a ha => if_neg fun hk => ?_
    obtain ⟨e, he, hk⟩ := (Option.any_eq_true _ _).1 hk
    exact h a ha e he (eq_of_beq hk)
  simp [of, hn]

section

attribute [local simp] of about errand? verdict? lookup? target? reply? ended?

@[simp] theorem of_called (c : Call) : of key [.called c] = {} := by simp

@[simp] theorem of_began : of key [.began e] = {} := by simp

@[simp] theorem of_checked (marked : Except Failure Bool) :
    of e.key [.checked e marked] = { verdicts := [marked] } := by simp

@[simp] theorem of_found (answer : Except Failure (List DeviceToken)) :
    of e.key [.found e answer] = { answers := [answer] } := by simp

@[simp] theorem of_sent (index : Nat) (token : DeviceToken) :
    of e.key [.sent e index token] = { attempts := [(token, index)] } := by simp

@[simp] theorem of_answered (index : Nat) (token : DeviceToken) (answer : Except DeliveryError Unit) :
    of e.key [.answered e index token answer] = { replies := [(token, index)] } := by simp

@[simp] theorem of_ended : of e.key [.ended e] = { endings := [e] } := by simp

end

end Record

/-! ## What is about one errand -/

/-- Nothing is said about another errand. -/
def Only (e : Errand) (new : List Happening) : Prop := ∀ h ∈ new, ∀ e', h.errand? = some e' → e' = e

namespace Only

variable {e : Errand} {new new' : List Happening}

theorem nil : Only e [] := fun _ h => absurd h List.not_mem_nil

theorem single {h : Happening} (hh : ∀ e', h.errand? = some e' → e' = e) : Only e [h] :=
  fun _ ha => List.mem_singleton.1 ha ▸ hh

theorem append (h : Only e new) (h' : Only e new') : Only e (new ++ new') := fun a ha =>
  (List.mem_append.1 ha).elim (h a) (h' a)

/-- Other records do not grow. -/
theorem of_others {key : Nat × Nat} (h : Only e new) (hk : e.key ≠ key) : Record.of key new = {} :=
  Record.of_others fun a ha e' he => by rw [h a ha e' he]; exact hk

/-- What is said of the errand is all that is said, calls apart. -/
theorem pick_about {α : Type} {f : Happening → Option α} (h : Only e new)
    (hf : ∀ c, f (.called c) = none) : pick (about e.key f) new = pick f new := by
  refine congrArg List.reverse (List.filterMap_congr ?_)
  intro a ha
  unfold about
  split
  · rfl
  · next hk =>
    cases a with
    | called c => exact (hf c).symm
    | began e' | checked e' | found e' | sent e' | answered e' | ended e' =>
      have he : e' = e := h _ ha e' rfl
      exact absurd (by simp [errand?, he]) hk

/-- The record of the errand tells whether it has ended. -/
theorem endings (h : Only e new) : (Record.of e.key new).endings = pick ended? new :=
  h.pick_about fun _ => rfl

end Only

end Herald.Delivery
