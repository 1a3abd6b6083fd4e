/-!
# Bounded channels

A queue with a number of places. Whoever sends while a place is free puts the item in at once.
Otherwise the item waits outside, and each place that becomes free calls in whoever has waited
longest. It is left open how soon one who was called comes in, but the place is kept until then.

A sender that waits holds a ticket.

* `Channel.length_items_le`: a channel never holds more items than it has places.
* `send?_cases`, `enter?_cases`, `receive?_cases`: items come in at the end and are received at the
  front.
-/

namespace Herald

/-- A queue with `capacity` places. -/
structure Channel (α : Type) where
  capacity : Nat
  /-- What came in and was not yet received, oldest first. -/
  items : List α := []
  /-- What waits outside, with its tickets, in the order in which it was sent. -/
  waiting : List (Nat × α) := []
  /-- The next ticket. -/
  ticket : Nat := 0
  /-- Nothing can be sent any more. -/
  isClosed : Bool := false
  length_items_le : items.length ≤ capacity := by first | assumption | exact Nat.zero_le _

namespace Channel

variable {α : Type}

/-- A channel with at least one place. -/
def create (capacity : Nat) : Channel α := { capacity := max capacity 1 }

/-- How many places are free. -/
def free (c : Channel α) : Nat := c.capacity - c.items.length

/-- What has been called in. -/
def called (c : Channel α) : List (Nat × α) := c.waiting.take c.free

/-- The item of a ticket has been called in. -/
def calls (c : Channel α) (t : Nat) : Bool := c.called.any (·.1 == t)

/-- Puts an item in. -/
def put (c : Channel α) (a : α) (h : c.items.length < c.capacity) : Channel α :=
  { c with
    items := c.items ++ [a]
    length_items_le := by simpa using Nat.succ_le_of_lt h }

/-- Sends an item, which comes in at once or waits and gets a ticket; not possible once the channel
is closed. -/
def send? (c : Channel α) (a : α) : Option (Option Nat × Channel α) :=
  if c.isClosed then none
  else if h : c.waiting.length < c.free then
    some (none, c.put a (by simp only [free] at h; omega))
  else
    some (some c.ticket, { c with waiting := c.waiting ++ [(c.ticket, a)], ticket := c.ticket + 1 })

/-- Lets in what waits with a ticket, if it has been called. -/
def enter? (c : Channel α) (t : Nat) : Option (α × Channel α) :=
  if h : c.items.length < c.capacity then
    match c.called.find? (·.1 == t) with
    | none => none
    | some (_, a) => some (a, { c with waiting := c.waiting.eraseP (·.1 == t) }.put a h)
  else none

/-- Receives the oldest item. -/
def receive? (c : Channel α) : Option (α × Channel α) :=
  match h : c.items with
  | [] => none
  | a :: rest =>
    some (a, { c with
      items := rest
      length_items_le := by have := c.length_items_le; simp only [h, List.length_cons] at this; omega })

/-- Closes the channel: whoever waits is turned away, what is inside can still be received. -/
def close (c : Channel α) : Channel α :=
  { c with waiting := [], isClosed := true, length_items_le := c.length_items_le }

/-! ## What an operation makes of a channel -/

variable {c d : Channel α} {a : α} {t : Nat}

theorem send?_eq_none : c.send? a = none ↔ c.isClosed = true := by
  unfold send?
  split
  · simp [*]
  · split <;> simp [*]

/-- An item that is sent comes in as the last one, or waits as the last one. -/
theorem send?_cases {t : Option Nat} (h : c.send? a = some (t, d)) :
    (t = none ∧ d.items = c.items ++ [a] ∧ d.waiting = c.waiting ∧ d.ticket = c.ticket) ∨
    (t = some c.ticket ∧ d.items = c.items ∧ d.waiting = c.waiting ++ [(c.ticket, a)] ∧
      d.ticket = c.ticket + 1) := by
  unfold send? at h
  split at h
  · cases h
  · split at h <;> cases h
    · exact .inl ⟨rfl, rfl, rfl, rfl⟩
    · exact .inr ⟨rfl, rfl, rfl, rfl⟩

theorem send?_keeps {t : Option Nat} (h : c.send? a = some (t, d)) :
    d.capacity = c.capacity ∧ d.isClosed = c.isClosed ∧ c.isClosed = false := by
  unfold send? at h
  split at h
  · cases h
  · next ho => split at h <;> cases h <;> exact ⟨rfl, rfl, Bool.eq_false_iff.2 ho⟩

/-- What comes in was called, and comes in as the last one; the others go on waiting. -/
theorem enter?_cases (h : c.enter? t = some (a, d)) :
    (t, a) ∈ c.called ∧ d.items = c.items ++ [a] ∧
      ∃ before after, c.waiting = before ++ (t, a) :: after ∧ d.waiting = before ++ after ∧
        ∀ w ∈ before, w.1 ≠ t := by
  unfold enter? at h
  split at h
  · cases e : c.called.find? (·.1 == t) with
    | none => rw [e] at h; cases h
    | some w =>
      rw [e] at h
      cases h
      obtain ⟨ht, before, after, hb, hn⟩ := List.find?_eq_some_iff_append.1 e
      simp only [beq_iff_eq, Bool.not_eq_true', beq_eq_false_iff_ne] at ht hn
      obtain ⟨rest, hr⟩ : ∃ rest, c.waiting = c.called ++ rest :=
        ⟨_, (List.take_append_drop c.free c.waiting).symm⟩
      have hw : c.waiting = before ++ w :: (after ++ rest) := by rw [hr, hb]; simp
      have hwt : w = (t, w.2) := by rw [← ht]
      refine ⟨hwt ▸ List.mem_of_find?_eq_some e, rfl, before, _, hwt ▸ hw, ?_, hn⟩
      show c.waiting.eraseP _ = _
      rw [hw, List.eraseP_append_right _ (by simpa using fun x y hm => hn (x, y) hm)]
      simp [ht]
  · cases h

theorem enter?_keeps (h : c.enter? t = some (a, d)) :
    d.capacity = c.capacity ∧ d.isClosed = c.isClosed ∧ d.ticket = c.ticket := by
  unfold enter? at h
  split at h
  · split at h
    · cases h
    · cases h; exact ⟨rfl, rfl, rfl⟩
  · cases h

/-- Whoever was called can come in. -/
theorem enter?_of_calls (h : c.calls t = true) : ∃ r, c.enter? t = some r := by
  obtain ⟨w, hw, ht⟩ := List.any_eq_true.1 h
  have hf : c.items.length < c.capacity := by
    have hl := List.length_pos_of_mem hw
    simp only [called, free, List.length_take] at hl
    omega
  refine Option.isSome_iff_exists.1 ?_
  simp only [enter?, hf, ↓reduceDIte]
  cases e : c.called.find? (·.1 == t) with
  | none => exact absurd ht (List.find?_eq_none.1 e w hw)
  | some r => rfl

theorem enter?_eq_none (h : c.calls t = false) : c.enter? t = none := by
  have hn : c.called.find? (·.1 == t) = none := by
    refine List.find?_eq_none.2 fun w hw ht => ?_
    exact Bool.false_ne_true (h.symm.trans (List.any_eq_true.2 ⟨w, hw, ht⟩))
  unfold enter?
  rw [hn]
  split <;> rfl

/-- While there is room, whoever has waited longest has been called. -/
theorem exists_calls (hw : c.waiting ≠ []) (hf : c.items.length < c.capacity) :
    ∃ w ∈ c.waiting, c.calls w.1 = true := by
  obtain ⟨w, rest, e⟩ := List.exists_cons_of_ne_nil hw
  obtain ⟨n, hn⟩ : ∃ n, c.free = n + 1 := ⟨c.free - 1, by unfold free; omega⟩
  exact ⟨w, by simp [e], by simp [calls, called, e, hn]⟩

theorem receive?_eq_none : c.receive? = none ↔ c.items = [] := by
  unfold receive?
  split <;> simp [*]

/-- What is received was the first item. -/
theorem receive?_cases (h : c.receive? = some (a, d)) :
    c.items = a :: d.items ∧ d.waiting = c.waiting ∧ d.ticket = c.ticket := by
  unfold receive? at h
  split at h
  · cases h
  · next e => cases h; exact ⟨e, rfl, rfl⟩

theorem receive?_keeps (h : c.receive? = some (a, d)) :
    d.capacity = c.capacity ∧ d.isClosed = c.isClosed := by
  unfold receive? at h
  split at h
  · cases h
  · cases h; exact ⟨rfl, rfl⟩

@[simp] theorem items_close : c.close.items = c.items := rfl

@[simp] theorem waiting_close : c.close.waiting = [] := rfl

@[simp] theorem isClosed_close : c.close.isClosed = true := rfl

@[simp] theorem capacity_close : c.close.capacity = c.capacity := rfl

end Channel

end Herald
