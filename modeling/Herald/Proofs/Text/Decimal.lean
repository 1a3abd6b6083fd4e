import Herald.Text.Decimal
import Mathlib.Data.List.Basic

/-!
# Decimal text tells numbers apart

* `digits_cases`: only zero is written with a zero in front.
* `intChars_injective`, `ofNat_injective`, `ofId_injective`: different numbers have different texts.
-/

namespace Herald.Decimal

/-! ## Digits -/

theorem lt_ten_of_mem_digitsRev {fuel n d : Nat} (h : d ∈ digitsRev fuel n) : d < 10 := by
  induction fuel generalizing n with
  | zero => cases h
  | succ fuel ih =>
    unfold digitsRev at h
    split at h
    · next hn => rwa [List.mem_singleton.1 h]
    · rcases List.mem_cons.1 h with rfl | h
      · exact Nat.mod_lt n (by decide)
      · exact ih h

theorem lt_ten_of_mem_digits {n d : Nat} (h : d ∈ digits n) : d < 10 :=
  lt_ten_of_mem_digitsRev (List.mem_reverse.1 h)

/-- The most significant digit of a number that is not zero. -/
theorem digitsRev_eq_append {fuel n : Nat} (h : n < fuel) (hn : n ≠ 0) :
    ∃ d ds, digitsRev fuel n = ds ++ [d] ∧ d ≠ 0 := by
  induction fuel generalizing n with
  | zero => omega
  | succ fuel ih =>
    unfold digitsRev
    split
    · exact ⟨n, [], rfl, hn⟩
    · obtain ⟨d, ds, e, hd⟩ := ih (n := n / 10) (by omega) (by omega)
      exact ⟨d, n % 10 :: ds, by rw [e]; rfl, hd⟩

/-- Only zero is written with a zero in front. -/
theorem digits_cases (n : Nat) :
    n = 0 ∧ digits n = [0] ∨ ∃ d ds, digits n = d :: ds ∧ d ≠ 0 := by
  by_cases hn : n = 0
  · exact .inl ⟨hn, by rw [hn]; rfl⟩
  · obtain ⟨d, ds, e, hd⟩ := digitsRev_eq_append (Nat.lt_succ_self n) hn
    exact .inr ⟨d, ds.reverse, by rw [digits, e, List.reverse_append]; rfl, hd⟩

/-! ## Characters -/

theorem digit?_digitChar {d : Nat} (h : d < 10) : digit? (digitChar d) = some d := by
  have hall : ∀ d < 10, digit? (digitChar d) = some d := by decide
  exact hall d h

theorem isDigit_digitChar {d : Nat} (h : d < 10) : (digitChar d).isDigit = true := by
  have hall : ∀ d < 10, (digitChar d).isDigit = true := by decide
  exact hall d h

theorem isDigit_of_mem_natChars {n : Nat} {c : Char} (h : c ∈ natChars n) : c.isDigit = true := by
  obtain ⟨d, hd, rfl⟩ := List.mem_map.1 h
  exact isDigit_digitChar (lt_ten_of_mem_digits hd)

theorem filterMap_natChars (n : Nat) : (natChars n).filterMap digit? = digits n := by
  rw [natChars, List.filterMap_map]
  calc (digits n).filterMap (digit? ∘ digitChar)
      = (digits n).filterMap some :=
        List.filterMap_congr fun d hd => digit?_digitChar (lt_ten_of_mem_digits hd)
    _ = digits n := List.filterMap_some

theorem natChars_injective {m n : Nat} (h : natChars m = natChars n) : m = n := by
  rw [← value_digits m, ← value_digits n, ← filterMap_natChars, ← filterMap_natChars, h]

/-- A number that is not negative does not begin with a minus sign. -/
theorem natChars_ne_minus {m : Nat} {cs : List Char} : natChars m ≠ '-' :: cs := by
  intro h
  have hc : ('-' : Char) ∈ natChars m := h ▸ List.mem_cons_self ..
  exact absurd (isDigit_of_mem_natChars hc) (by decide)

theorem intChars_injective {m n : Int} (h : intChars m = intChars n) : m = n := by
  cases m with
  | ofNat m =>
    cases n with
    | ofNat n => exact congrArg Int.ofNat (natChars_injective h)
    | negSucc n => exact absurd h natChars_ne_minus
  | negSucc m =>
    cases n with
    | ofNat n => exact absurd h.symm natChars_ne_minus
    | negSucc n =>
      have hs : m + 1 = n + 1 := natChars_injective (List.cons.inj h).2
      rw [Nat.succ.inj hs]

theorem isDigit_of_mem_intChars {n : Int} {c : Char} (h : c ∈ intChars n) :
    c.isDigit = true ∨ c = '-' := by
  cases n with
  | ofNat n => exact .inl (isDigit_of_mem_natChars h)
  | negSucc n =>
    rcases List.mem_cons.1 h with rfl | h
    · exact .inr rfl
    · exact .inl (isDigit_of_mem_natChars h)

theorem colon_not_mem_intChars (n : Int) : ':' ∉ intChars n := by
  intro h
  rcases isDigit_of_mem_intChars h with h | h
  · exact absurd h (by decide)
  · exact absurd h (by decide)

theorem ofNat_injective {m n : Nat} (h : ofNat m = ofNat n) : m = n :=
  natChars_injective (String.ofList_injective h)

theorem ofId_injective {m n : Int64} (h : ofId m = ofId n) : m = n :=
  Int64.toInt_inj.1 (intChars_injective (String.ofList_injective h))

end Herald.Decimal
