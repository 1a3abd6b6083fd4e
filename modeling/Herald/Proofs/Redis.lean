import Herald.Cache
import Herald.Proofs.Configuration
import Herald.Redis
import Mathlib.Data.List.Basic

/-!
# What the cache server makes of a push

The commands that put a text in front of a list and cut it are to leave what the cache promises: the first
`cap` entries. The last entry to be kept is told by a signed number of 64 bits. A number of places beyond its
range comes out negative, and the server counts negative positions from the end: then it is not the
list that is cut to so many entries, but so many entries that are cut off the list.

* `Store.get_put`: what a write changes, and that it changes nothing else.
* `toInt_lastOf`, `trim_lastOf`: the position that is sent, and what it cuts off.
* `push_exact`: what is left under each key.
* `not_push_keeps`: a number of places that can be set and with which a history keeps nothing.
-/

namespace Herald.Redis

variable {cap : Nat}

/-! ## Lists -/

namespace Store

theorem lookup_filter_self (key : String) (l : List (String × List String)) :
    (l.filter (·.1 != key)).lookup key = none := by
  rw [List.lookup_eq_none_iff]
  intro p hp
  have hne : p.1 ≠ key := by simpa using (List.mem_filter.1 hp).2
  simpa using hne.symm

theorem get_put (s : Store) (key other : String) (entries : List String) :
    (s.put key entries).get other = if other = key then entries else s.get other := by
  have hrest : (s.lists.filter (·.1 != key)).lookup other =
      if other = key then none else s.lists.lookup other := by
    split
    · next h => rw [h, lookup_filter_self]
    · next h => exact Cache.lookup_filter_ne h s.lists
  cases entries with
  | nil =>
    simp only [get, put, List.isEmpty_nil, if_true, hrest]
    split <;> rfl
  | cons e entries =>
    simp only [get, put, List.isEmpty_cons, Bool.false_eq_true, if_false, List.lookup_cons, hrest]
    split
    · next h => simp [eq_of_beq h]
    · next h =>
      have hne : other ≠ key := by simpa using h
      simp [hne]

/-- Cutting a list from its beginning on. A negative position counts from the end. -/
theorem trim_zero (entries : List String) (last : Int) :
    trim entries 0 last =
      entries.take ((if last < 0 then last + entries.length else last) + 1).toNat := by
  simp only [trim, position, Int.lt_irrefl, if_false, Int.toNat_zero, List.drop_zero]
  generalize (if last < 0 then last + (entries.length : Int) else last) = l
  split
  · next h => rw [Int.toNat_of_nonpos (by omega), List.take_zero]
  · next h => congr 1; omega

/-- The lists of a store are those of a cache. -/
def Holds (s : Store) (c : Cache) : Prop := ∀ key, s.get key = c.entries key

end Store

/-! ## Pushing -/

theorem toInt_lastOf (hpos : 1 ≤ cap) (hcap : cap < twoPow 64) :
    (lastOf cap).toInt = if cap ≤ twoPow 63 then (cap : Int) - 1 else (cap : Int) - 1 - twoPow 64 := by
  have hone : (1 : Int64).toInt = 1 := rfl
  rw [twoPow_64] at hcap
  rw [twoPow_63, twoPow_64, lastOf, Nat.max_eq_left hpos, Int64.toInt_sub, Int64.toInt_ofNat', hone,
    Int.bmod_def, Int.bmod_def]
  simp only [Int64.size]
  omega

/-- Cutting a list for so many places keeps its first `cap` entries as long as the last position is a signed
number, or wraps round to one, and all but its last `twoPow 64 - cap` entries otherwise. -/
theorem trim_lastOf (entries : List String) (hpos : 1 ≤ cap) (hcap : cap < twoPow 64) :
    Store.trim entries 0 (lastOf cap).toInt =
      entries.take (if cap ≤ twoPow 63 then cap else entries.length - (twoPow 64 - cap)) := by
  rw [Store.trim_zero, toInt_lastOf hpos hcap]
  congr 1
  rw [twoPow_64] at hcap
  rw [twoPow_63, twoPow_64]
  by_cases hle : cap ≤ 9223372036854775808
  · rw [if_pos hle, if_pos hle]
    omega
  · rw [if_neg hle, if_neg hle]
    omega

/-- What a push leaves under each key, told by the position that is sent. -/
theorem get_push (s : Store) (key other value : String) (cap : Nat) :
    (s.runAll (pushCommands key value cap)).get other =
      if other = key then Store.trim (value :: s.get key) 0 (lastOf cap).toInt else s.get other := by
  have hrun : s.runAll (pushCommands key value cap) =
      (s.put key (value :: s.get key)).put key
        (Store.trim ((s.put key (value :: s.get key)).get key) 0 (lastOf cap).toInt) := rfl
  rw [hrun, Store.get_put, Store.get_put, Store.get_put]
  by_cases h : other = key <;> simp [h]

theorem get_push_self (s : Store) (key value : String) (hpos : 1 ≤ cap) (hcap : cap < twoPow 64) :
    (s.runAll (pushCommands key value cap)).get key = (value :: s.get key).take
      (if cap ≤ twoPow 63 then cap else (s.get key).length + 1 - (twoPow 64 - cap)) := by
  rw [get_push, if_pos rfl, trim_lastOf _ hpos hcap, List.length_cons]

/-- The server keeps the promise of the cache about a push, if the number of places is not beyond the range
of a signed number. Beyond it the oldest entries are lost, although there is room for them: of a list that has
not been cut yet the last `twoPow 64 - cap` entries. Other keys are never changed. -/
theorem push_exact (s : Store) (key value : String) (hpos : 1 ≤ cap) (hcap : cap < twoPow 64) :
    (cap ≤ twoPow 63 →
      (s.runAll (pushCommands key value cap)).get key = (value :: s.get key).take cap ∧
      ∀ c, s.Holds c → (s.runAll (pushCommands key value cap)).Holds (c.push key value cap)) ∧
    (twoPow 63 < cap → (s.runAll (pushCommands key value cap)).get key =
      (value :: s.get key).take ((s.get key).length + 1 - (twoPow 64 - cap))) ∧
    ((s.get key).length < cap → ((s.runAll (pushCommands key value cap)).get key =
      (value :: s.get key).take cap ↔ cap ≤ twoPow 63)) ∧
    ∀ other, other ≠ key → (s.runAll (pushCommands key value cap)).get other = s.get other := by
  have hself := get_push_self s key value hpos hcap
  have hother (other : String) (h : other ≠ key) :
      (s.runAll (pushCommands key value cap)).get other = s.get other := by
    rw [get_push, if_neg h]
  refine ⟨fun hle => ?_, fun hlt => ?_, fun hroom => ⟨fun h => ?_, fun hle => ?_⟩, hother⟩
  · rw [if_pos hle] at hself
    refine ⟨hself, fun c hs other => ?_⟩
    rw [Cache.entries_push]
    split
    · next h => rw [h, hself, hs key]
    · next h => rw [hother other h, hs other]
  · rwa [if_neg (by omega)] at hself
  · -- All entries are wanted, and fewer are left.
    by_contra hgt
    have hlength := congrArg List.length (hself.symm.trans h)
    rw [if_neg hgt, List.length_take, List.length_take, List.length_cons] at hlength
    omega
  · rwa [if_pos hle] at hself

/-- What has to be set, and more places in a history than a signed number can tell. -/
def overlong : List (String × String) :=
  Configuration.required ++ [("HISTORY_CAP", "18446744073709551615")]

/-- Histories of that many places are accepted, and the first entry is lost at once. -/
theorem not_push_keeps : ¬ ∀ (s : Store) (key value : String) (source : PairSource)
    (pairs : List (String × String)) (c : Configuration), Configuration.ofPairs source pairs = .ok c →
    (s.runAll (pushCommands key value c.historyCap)).get key = (value :: s.get key).take c.historyCap := by
  intro h
  obtain ⟨c, hc⟩ : ∃ c, Configuration.ofPairs .given overlong = .ok c := ⟨_, rfl⟩
  have hcap : (Configuration.ofPairs .given overlong).toOption.map Configuration.historyCap =
      some 18446744073709551615 := by decide +kernel
  have hc' : c.historyCap = 18446744073709551615 := by
    rw [hc] at hcap
    exact Option.some.inj hcap
  have hpush := h ⟨[]⟩ "k" "v" .given overlong c hc
  rw [hc'] at hpush
  exact absurd hpush (by decide +kernel)

theorem push_exact_fewPlaces : 1 ≤ 2 ∧ 2 < twoPow 64 ∧
    (Store.runAll ⟨[("k", ["b", "c", "d"]), ("l", ["x"])]⟩ (pushCommands "k" "a" 2)).get "k" = ["a", "b"] ∧
    (Store.runAll ⟨[("k", ["b", "c", "d"]), ("l", ["x"])]⟩ (pushCommands "k" "a" 2)).get "l" = ["x"] := by
  have hcap : 2 < twoPow 64 := by rw [twoPow_64]; decide
  obtain ⟨hkept, -, -, hother⟩ := push_exact ⟨[("k", ["b", "c", "d"]), ("l", ["x"])]⟩ "k" "a" (by decide) hcap
  refine ⟨by decide, hcap, (hkept ?_).1, hother "l" (by decide)⟩
  rw [twoPow_63]
  decide

end Herald.Redis
