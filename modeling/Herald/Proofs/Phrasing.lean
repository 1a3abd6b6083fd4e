import Herald.Phrasing
import Mathlib.Data.List.TakeWhile

/-!
# What alerts say

* `Text.trim_eq_iff`: a trimmed text has lost the white space at its ends, and nothing else.
* `Room.titled_iff`: which name of a room is shown.
* `leadWith_eq_some`, `leadWith_eq_none`: the actor comes first, and the others keep their order.
* `pluralise_ok`: how many names an alert shows, and how it counts the others.
-/

namespace Herald

/-! ## Names of rooms -/

namespace Text

/-- `t` is `s` without the white space at its ends. -/
def Trims (s t : String) : Prop :=
  ∃ front back : List Char, s.toList = front ++ t.toList ++ back ∧
    (∀ c ∈ front, isBlank c = true) ∧ (∀ c ∈ back, isBlank c = true) ∧
    (∀ c ∈ t.toList.head?, isBlank c = false) ∧ ∀ c ∈ t.toList.getLast?, isBlank c = false

/-- What is dropped satisfies the test, and the first one that is kept does not. -/
theorem exists_dropWhile (p : Char → Bool) (cs : List Char) : ∃ front,
    cs = front ++ cs.dropWhile p ∧ (∀ c ∈ front, p c = true) ∧
      ∀ c ∈ (cs.dropWhile p).head?, p c = false := by
  refine ⟨cs.takeWhile p, List.takeWhile_append_dropWhile.symm, ?_, ?_⟩
  · intro c hc
    exact List.mem_takeWhile_imp hc
  · intro c hc
    have h := List.head?_dropWhile_not p cs
    rw [Option.mem_def.1 hc] at h
    exact Bool.eq_false_iff.2 (by simpa using h)

theorem dropWhile_append {p : Char → Bool} {front cs : List Char} (hf : ∀ c ∈ front, p c = true)
    (hc : ∀ c ∈ cs.head?, p c = false) : (front ++ cs).dropWhile p = cs := by
  rw [List.dropWhile_append_of_pos hf]
  cases cs with
  | nil => rfl
  | cons c cs => exact List.dropWhile_cons_of_neg (by simpa using hc c rfl)

theorem trims_trim (s : String) : Trims s (trim s) := by
  obtain ⟨front, hs, hf, hh⟩ := exists_dropWhile isBlank s.toList
  obtain ⟨back, hb, hbb, hl⟩ := exists_dropWhile isBlank (s.toList.dropWhile isBlank).reverse
  have ht : (trim s).toList = ((s.toList.dropWhile isBlank).reverse.dropWhile isBlank).reverse := by
    simp [trim, dropTail]
  have hd : s.toList.dropWhile isBlank = (trim s).toList ++ back.reverse := by
    rw [ht, ← List.reverse_append, ← hb, List.reverse_reverse]
  refine ⟨front, back.reverse, by rw [List.append_assoc, ← hd]; exact hs, hf,
    fun c hc => hbb c (List.mem_reverse.1 hc), fun c hc => hh c ?_, fun c hc => hl c ?_⟩
  · rw [hd, List.head?_append, Option.mem_def.1 hc]; rfl
  · rw [ht, List.getLast?_reverse] at hc; exact hc

/-- A trimmed text has lost the white space at its ends, and nothing else. -/
theorem trim_eq_iff {s t : String} : trim s = t ↔ Trims s t := by
  refine ⟨fun h => h ▸ trims_trim s, ?_⟩
  rintro ⟨front, back, hs, hf, hb, hh, hl⟩
  rw [← String.toList_inj]
  have ht : (trim s).toList = ((s.toList.dropWhile isBlank).reverse.dropWhile isBlank).reverse := by
    simp [trim, dropTail]
  rw [ht, hs, List.append_assoc, List.dropWhile_append_of_pos hf]
  cases e : t.toList with
  | nil =>
    have hn : back.dropWhile isBlank = [] := List.dropWhile_eq_nil_iff.2 hb
    rw [List.nil_append, hn]
    rfl
  | cons c cs =>
    have hc : isBlank c = false := hh c (by rw [e]; rfl)
    have hd : (c :: cs ++ back).dropWhile isBlank = c :: cs ++ back :=
      List.dropWhile_cons_of_neg (by simp [hc])
    rw [hd, List.reverse_append, ← e, dropWhile_append, List.reverse_reverse]
    · exact fun c hc => hb c (List.mem_reverse.1 hc)
    · intro c hc
      rw [List.head?_reverse] at hc
      exact hl c hc

theorem trims_empty {s : String} : Trims s "" ↔ ∀ c ∈ s.toList, isBlank c = true := by
  constructor
  · rintro ⟨front, back, hs, hf, hb, -⟩ c hc
    rw [hs] at hc
    rcases List.mem_append.1 hc with hc | hc
    · exact hf c (by simpa using hc)
    · exact hb c hc
  · intro h
    exact ⟨s.toList, [], by simp, h, nofun, nofun, nofun⟩

end Text

namespace Room

/-- The name under which a room is shown: its own without the white space at its ends, unless it has
none or nothing is left of it. -/
def Titled (r : Room) : Option String → Prop
  | some title => title ≠ "" ∧ ∃ name, r.name = some name ∧ Text.Trims name title
  | none => ∀ name, r.name = some name → ∀ c ∈ name.toList, Text.isBlank c = true

theorem titled_iff {r : Room} {title : Option String} : r.Titled title ↔ r.displayName = title := by
  unfold displayName
  cases title with
  | none =>
    simp only [Titled, Option.filter_eq_none_iff, Option.map_eq_some_iff]
    constructor
    · rintro h _ ⟨name, hn, rfl⟩
      simp [Text.trim_eq_iff.2 (Text.trims_empty.2 (h name hn))]
    · intro h name hn
      have ht := h _ ⟨name, hn, rfl⟩
      exact Text.trims_empty.1 (Text.trim_eq_iff.1 (by simpa using ht))
  | some title =>
    simp only [Titled, Option.filter_eq_some_iff, Option.map_eq_some_iff, bne_iff_ne,
      Text.trim_eq_iff]
    exact and_comm

end Room

namespace Phrasing

/-! ## Who comes first -/

variable {members ordered : List Member} {actor : UserId}

/-- The first entry of a user comes before all others, which keep their order. -/
def Leads (members : List Member) (actor : UserId) (ordered : List Member) : Prop :=
  ∃ before first after, members = before ++ first :: after ∧ (∀ m ∈ before, m.id ≠ actor) ∧
    first.id = actor ∧ ordered = first :: (before ++ after)

theorem leadWith_eq_some : leadWith members actor = some ordered ↔ Leads members actor ordered := by
  unfold leadWith
  rw [Option.map_eq_some_iff]
  constructor
  · rintro ⟨first, hf, rfl⟩
    obtain ⟨hi, before, after, rfl, hb⟩ := List.find?_eq_some_iff_append.1 hf
    have hb : ∀ m ∈ before, m.id ≠ actor := fun m hm => by simpa using hb m hm
    have hi : first.id = actor := eq_of_beq hi
    refine ⟨before, first, after, rfl, hb, hi, ?_⟩
    rw [List.eraseP_append_right _ (by simpa using hb), List.eraseP_cons_of_pos (by simpa using hi)]
  · rintro ⟨before, first, after, rfl, hb, hi, rfl⟩
    refine ⟨first, List.find?_eq_some_iff_append.2 ⟨by simpa using hi, before, after, rfl, ?_⟩, ?_⟩
    · intro m hm
      simpa using hb m hm
    · rw [List.eraseP_append_right _ (by simpa using hb),
        List.eraseP_cons_of_pos (by simpa using hi)]

theorem leadWith_eq_none : leadWith members actor = none ↔ ∀ m ∈ members, m.id ≠ actor := by
  simp [leadWith]

theorem Leads.length (h : Leads members actor ordered) : ordered.length = members.length := by
  obtain ⟨before, first, after, rfl, -, -, rfl⟩ := h
  simp only [List.length_cons, List.length_append]
  omega

/-! ## How many are named -/

/-- How a template's name ends for so many people. -/
def sizeSuffix (count : Nat) : String := if count ≤ 3 then Decimal.ofNat count else "3_and_more"

/-- How many people are not named, if any. -/
def unnamed (count : Nat) : List String := if count ≤ 3 then [] else [Decimal.ofNat (count - 3)]

/-- If there is anybody, and there are as many names as are to be shown, there is an alert. -/
theorem pluralise_ok {stem : String} {leading : Option String} {names : List String} {count : Nat}
    (hc : 0 < count) (hn : min 3 count ≤ names.length) :
    pluralise stem leading names count = .ok ⟨stem ++ "_" ++ sizeSuffix count,
      leading.toList ++ names.take (min 3 count) ++ unnamed count⟩ := by
  have hfail : ¬ (count = 0 ∨ names.length < min count maxShown) := by
    rw [maxShown, Nat.min_comm]; omega
  unfold pluralise
  rw [if_neg hfail, maxShown, Nat.min_comm]
  by_cases hm : count ≤ 3
  · simp only [sizeSuffix, unnamed, hm, if_true, Nat.not_lt.2 hm, if_false, List.append_nil]
    rfl
  · have hk : stem ++ "_" ++ "3" ++ "_and_more" = stem ++ "_" ++ "3_and_more" := String.append_assoc ..
    simp only [sizeSuffix, unnamed, hm, if_false, Nat.lt_of_not_le hm, if_true, ← hk]
    rfl

end Phrasing

end Herald
