import Herald.Call

/-!
# The cache

Marks that run out, and lists of texts, both by key. A call to the cache takes effect when it ends,
and a call that fails or is cut off has no effect.

* `mark?_setMark`, `entries_push`: what a write changes, and that it changes nothing else.

Here are `exists` (`Cache.isMarked`), `set_with_ttl` (`Cache.setMark`), `push_and_trim`
(`Cache.push`) and `range` (`Cache.entries`) of the cache store.
-/

namespace Herald

/-- What the cache holds. Of several entries for one key the first one counts. -/
structure Cache where
  /-- When each mark runs out. -/
  marks : List (String × Nat) := []
  lists : List (String × List String) := []
deriving Repr

namespace Cache

/-- When the mark of a key runs out. -/
def mark? (c : Cache) (key : String) : Option Nat := c.marks.lookup key

/-- The key has a mark that has not run out. -/
def isMarked (c : Cache) (now : Nat) (key : String) : Bool :=
  (c.mark? key).any (now < ·)

/-- The list of a key; the empty list if there is none. -/
def entries (c : Cache) (key : String) : List String := (c.lists.lookup key).getD []

/-- Sets a mark that runs out at a time. -/
def setMark (c : Cache) (key : String) (ends : Nat) : Cache :=
  { c with marks := (key, ends) :: c.marks.filter (·.1 != key) }

/-- Puts a text in front of the list of a key and keeps the first `cap` texts. -/
def push (c : Cache) (key text : String) (cap : Nat) : Cache :=
  { c with lists := (key, (text :: c.entries key).take cap) :: c.lists.filter (·.1 != key) }

theorem lookup_filter_ne {α : Type} {key other : String} (h : other ≠ key) (l : List (String × α)) :
    (l.filter (·.1 != key)).lookup other = l.lookup other := by
  induction l with
  | nil => rfl
  | cons p l ih =>
    obtain ⟨k, v⟩ := p
    by_cases hk : k = key
    · subst hk
      have hne : (other == k) = false := by simpa using h
      simp [List.lookup_cons, hne, ih]
    · have hf : ((k, v) :: l).filter (·.1 != key) = (k, v) :: l.filter (·.1 != key) := by
        simp [hk]
      rw [hf, List.lookup_cons, List.lookup_cons, ih]

theorem mark?_setMark (c : Cache) (key other : String) (ends : Nat) :
    (c.setMark key ends).mark? other = if other = key then some ends else c.mark? other := by
  simp only [mark?, setMark, List.lookup_cons]
  split
  · next h => simp [eq_of_beq h]
  · next h =>
    have hne : other ≠ key := by simpa using h
    simp [hne, lookup_filter_ne hne]

theorem entries_push (c : Cache) (key other text : String) (cap : Nat) :
    (c.push key text cap).entries other =
      if other = key then (text :: c.entries key).take cap else c.entries other := by
  simp only [entries, push, List.lookup_cons]
  split
  · next h => simp [eq_of_beq h]
  · next h =>
    have hne : other ≠ key := by simpa using h
    simp [hne, lookup_filter_ne hne]

@[simp] theorem mark?_push (c : Cache) (key other text : String) (cap : Nat) :
    (c.push key text cap).mark? other = c.mark? other := rfl

@[simp] theorem entries_setMark (c : Cache) (key other : String) (ends : Nat) :
    (c.setMark key ends).entries other = c.entries other := rfl

/-- The keys of marks that have not run out, each with what is left, in ascending order. -/
def remaining (c : Cache) (now : Nat) : List (String × Nat) :=
  ((c.marks.filter (now < ·.2)).map fun m => (m.1, m.2 - now)).mergeSort fun a b => a.1 ≤ b.1

end Cache

/-- A cache and the time of the clock, in milliseconds. -/
structure ClockedCache where
  now : Nat := 0
  cache : Cache := {}

namespace ClockedCache

/-- Lets time pass. -/
def advance (s : ClockedCache) (ms : Nat) : ClockedCache := { s with now := s.now + ms }

/-- A call to the cache: `effect`, given the time at which the call ends, says what it yields and
what becomes of the cache. -/
def settle {α : Type} (s : ClockedCache) (reply : Reply Failure Unit)
    (effect : Nat → Cache → α × Cache) : Except Failure α × ClockedCache :=
  let now := s.now + reply.delay
  match reply.answer with
  | .ok () =>
    let r := effect now s.cache
    (.ok r.1, ⟨now, r.2⟩)
  | .error cause => (.error cause, ⟨now, s.cache⟩)

/-- A call to the cache under a limit. -/
def perform {α : Type} (s : ClockedCache) (limit : Limit) (operation : String)
    (reply : Reply Failure Unit) (effect : Nat → Cache → α × Cache) :
    Except Failure α × ClockedCache :=
  s.settle (reply.within limit operation) effect

end ClockedCache

end Herald
