import Herald.Proofs.Text.Decimal
import Herald.Text.Number

/-!
# Which texts say numbers

A text says a number if it is written in decimal digits, at least one, zeros in front included, after an
optional sign. A number is read just if a text says it and it is in range.

* `Unsigned`, `Signed`: the ways to write a number.
* `unsigned_eq_ok`, `signed_eq_ok`: which texts are read as a number.
-/

namespace Herald.Number

open Decimal

variable {most acc n : Nat} {problem : NumberProblem} {c : Char} {cs : List Char} {s : String}

/-! ## Digits -/

/-- The digits of a text continue a number that was begun. -/
def ReadsOn (acc : Nat) (cs : List Char) (n : Nat) : Prop :=
  ∃ ds : List Nat, (∀ d ∈ ds, d < 10) ∧ cs = ds.map digitChar ∧
    ds.foldl (fun acc d => 10 * acc + d) acc = n

theorem digit?_eq_some {d : Nat} : digit? c = some d ↔ d < 10 ∧ c = digitChar d := by
  constructor
  · intro h
    obtain ⟨hc, h⟩ := Option.ite_none_right_eq_some.1 h
    obtain rfl := Option.some.inj h
    have hc : 48 ≤ c.toNat ∧ c.toNat ≤ 57 := by
      simpa [Char.isDigit, UInt32.le_iff_toNat_le] using hc
    refine ⟨by omega, ?_⟩
    rw [digitChar, Nat.add_sub_cancel' hc.1, Char.ofNat_toNat]
  · rintro ⟨hd, rfl⟩
    exact digit?_digitChar hd

theorem readsOn_nil : ReadsOn acc [] n ↔ acc = n := by
  constructor
  · rintro ⟨ds, -, h, hn⟩
    rw [List.map_eq_nil_iff.1 h.symm] at hn
    exact hn
  · rintro rfl
    exact ⟨[], fun _ h => absurd h List.not_mem_nil, rfl, rfl⟩

theorem readsOn_cons :
    ReadsOn acc (c :: cs) n ↔ ∃ d, digit? c = some d ∧ ReadsOn (10 * acc + d) cs n := by
  simp only [digit?_eq_some]
  constructor
  · rintro ⟨- | ⟨d, ds⟩, hd, h, hn⟩
    · cases h
    · obtain ⟨rfl, rfl⟩ := List.cons.inj h
      exact ⟨d, ⟨hd d (List.mem_cons_self ..), rfl⟩, ds, fun x hx => hd x (List.mem_cons_of_mem _ hx),
        rfl, hn⟩
  · rintro ⟨d, ⟨hlt, rfl⟩, ds, hd, rfl, hn⟩
    exact ⟨d :: ds, List.forall_mem_cons.2 ⟨hlt, hd⟩, rfl, hn⟩

theorem ReadsOn.le (h : ReadsOn acc cs n) : acc ≤ n := by
  induction cs generalizing acc with
  | nil => exact Nat.le_of_eq (readsOn_nil.1 h)
  | cons c cs ih =>
    obtain ⟨d, -, h⟩ := readsOn_cons.1 h
    have := ih h
    omega

/-- A number that does not exceed the limit in the end does not do so on the way. -/
theorem magnitude_eq_ok (ha : acc ≤ most) :
    magnitude most problem acc cs = .ok n ↔ ReadsOn acc cs n ∧ n ≤ most := by
  induction cs generalizing acc with
  | nil =>
    rw [readsOn_nil, magnitude, Except.ok.injEq]
    exact ⟨fun h => ⟨h, h ▸ ha⟩, And.left⟩
  | cons c cs ih =>
    rw [readsOn_cons, magnitude]
    cases digit? c with
    | none => simp
    | some d =>
      simp only [Option.some.injEq, exists_eq_left']
      split
      · next hlt =>
        refine ⟨nofun, fun ⟨h, hn⟩ => ?_⟩
        have := h.le
        omega
      · next hle => exact ih (Nat.le_of_not_lt hle)

/-- Digits and nothing else, at least one. -/
def Digits (cs : List Char) (n : Nat) : Prop := cs ≠ [] ∧ ReadsOn 0 cs n

theorem Digits.isDigit (h : Digits (c :: cs) n) : c.isDigit = true := by
  obtain ⟨d, hd, -⟩ := readsOn_cons.1 h.2
  exact (Option.ite_none_right_eq_some.1 hd).1

theorem not_digits_nil : ¬ Digits [] n := fun h => h.1 rfl

theorem not_digits_plus : ¬ Digits ('+' :: cs) n := fun h => absurd h.isDigit (by decide)

theorem not_digits_minus : ¬ Digits ('-' :: cs) n := fun h => absurd h.isDigit (by decide)

/-! ## Signs -/

/-- The ways to write a number without a minus sign. -/
inductive Unsigned : List Char → Nat → Prop
  | bare {cs : List Char} {n : Nat} : Digits cs n → Unsigned cs n
  | plus {cs : List Char} {n : Nat} : Digits cs n → Unsigned ('+' :: cs) n

/-- The ways to write a number. -/
inductive Signed : List Char → Int → Prop
  | unsigned {cs : List Char} {n : Nat} : Unsigned cs n → Signed cs n
  | minus {cs : List Char} {n : Nat} : Digits cs n → Signed ('-' :: cs) (-n)

theorem unsigned_plus : Unsigned ('+' :: cs) n ↔ Digits cs n := by
  refine ⟨fun h => ?_, .plus⟩
  cases h with
  | bare h => exact absurd h not_digits_plus
  | plus h => exact h

theorem unsigned_bare (h : ∀ rest, cs ≠ '+' :: rest) : Unsigned cs n ↔ Digits cs n := by
  refine ⟨fun hu => ?_, .bare⟩
  cases hu with
  | bare hd => exact hd
  | plus => exact absurd rfl (h _)

theorem unsigned_eq_ok : unsigned most s = .ok n ↔ Unsigned s.toList n ∧ n ≤ most := by
  unfold unsigned
  split
  · next h => simp [h, unsigned_bare, not_digits_nil]
  · next h => simp [h, unsigned_plus, not_digits_nil]
  · next rest hne h =>
    have hr : rest ≠ [] := fun hr => hne hr
    rw [h, unsigned_plus, magnitude_eq_ok (Nat.zero_le _), Digits, and_iff_right hr]
  · next hne _ hp =>
    rw [unsigned_bare hp, magnitude_eq_ok (Nat.zero_le _), Digits, and_iff_right hne]

/-- A text says one number only. -/
theorem Unsigned.eq {m : Nat} (h : Unsigned cs n) (h' : Unsigned cs m) : n = m := by
  have hread {k : Nat} (hk : Unsigned cs k) (hle : k ≤ max n m) :
      unsigned (max n m) (String.ofList cs) = .ok k :=
    unsigned_eq_ok.2 ⟨by rwa [String.toList_ofList], hle⟩
  exact Except.ok.inj ((hread h (Nat.le_max_left ..)).symm.trans (hread h' (Nat.le_max_right ..)))

theorem signed_plus {i : Int} : Signed ('+' :: cs) i ↔ ∃ n : Nat, Digits cs n ∧ i = n := by
  constructor
  · intro h
    cases h with
    | unsigned h => exact ⟨_, unsigned_plus.1 h, rfl⟩
  · rintro ⟨n, h, rfl⟩
    exact .unsigned (.plus h)

theorem signed_minus {i : Int} : Signed ('-' :: cs) i ↔ ∃ n : Nat, Digits cs n ∧ i = -n := by
  constructor
  · intro h
    cases h with
    | unsigned h => exact absurd ((unsigned_bare (by simp)).1 h) not_digits_minus
    | minus h => exact ⟨_, h, rfl⟩
  · rintro ⟨n, h, rfl⟩
    exact .minus h

theorem signed_bare {i : Int} (hp : ∀ rest, cs ≠ '+' :: rest) (hm : ∀ rest, cs ≠ '-' :: rest) :
    Signed cs i ↔ ∃ n : Nat, Digits cs n ∧ i = n := by
  constructor
  · intro h
    cases h with
    | unsigned h => exact ⟨_, (unsigned_bare hp).1 h, rfl⟩
    | minus => exact absurd rfl (hm _)
  · rintro ⟨n, h, rfl⟩
    exact .unsigned (.bare h)

/-- Digits after their sign, the number of which must not exceed a limit. -/
theorem map_magnitude_eq_ok {f : Nat → Int} {i : Int} (hcs : cs ≠ []) :
    (magnitude most problem 0 cs).map f = .ok i ↔ ∃ n, Digits cs n ∧ n ≤ most ∧ f n = i := by
  have hm (n : Nat) : magnitude most problem 0 cs = .ok n ↔ Digits cs n ∧ n ≤ most := by
    rw [magnitude_eq_ok (Nat.zero_le _), Digits, and_iff_right hcs]
  simp only [← and_assoc, ← hm]
  cases magnitude most problem 0 cs <;> simp [Except.map]

theorem positive_eq_ok {i : Int} (hcs : cs ≠ []) :
    (magnitude (twoPow 63 - 1) problem 0 cs).map Int.ofNat = .ok i ↔
      (∃ n : Nat, Digits cs n ∧ i = n) ∧ -(twoPow 63 : Int) ≤ i ∧ i < twoPow 63 := by
  have hpos : 0 < twoPow 63 := by rw [twoPow_63]; decide
  rw [map_magnitude_eq_ok hcs]
  constructor
  · rintro ⟨n, hd, hn, rfl⟩
    exact ⟨⟨n, hd, rfl⟩, by simp only [Int.ofNat_eq_natCast]; omega⟩
  · rintro ⟨⟨n, hd, rfl⟩, -, hn⟩
    exact ⟨n, hd, by omega, rfl⟩

theorem negative_eq_ok {i : Int} (hcs : cs ≠ []) :
    (magnitude (twoPow 63) problem 0 cs).map (fun n : Nat => -(n : Int)) = .ok i ↔
      (∃ n : Nat, Digits cs n ∧ i = -n) ∧ -(twoPow 63 : Int) ≤ i ∧ i < twoPow 63 := by
  have hpos : 0 < twoPow 63 := by rw [twoPow_63]; decide
  rw [map_magnitude_eq_ok hcs]
  constructor
  · rintro ⟨n, hd, hn, rfl⟩
    exact ⟨⟨n, hd, rfl⟩, by omega⟩
  · rintro ⟨⟨n, hd, rfl⟩, hn, -⟩
    exact ⟨n, hd, by omega, rfl⟩

theorem signed_eq_ok {i : Int} :
    signed s = .ok i ↔ Signed s.toList i ∧ -(twoPow 63 : Int) ≤ i ∧ i < twoPow 63 := by
  unfold signed
  split
  · next h => simp [h, signed_bare, not_digits_nil]
  · next h => simp [h, signed_plus, not_digits_nil]
  · next h => simp [h, signed_minus, not_digits_nil]
  · next rest hne h => rw [h, signed_plus, positive_eq_ok hne]
  · next rest hne h =>
    -- The number is made an integer before its sign is turned.
    have hmap : (magnitude (twoPow 63) .tooSmall 0 rest >>= fun n => pure (n : Int)).map (fun n => -n) =
        (magnitude (twoPow 63) .tooSmall 0 rest).map fun n : Nat => -(n : Int) := by
      cases magnitude (twoPow 63) .tooSmall 0 rest <;> rfl
    rw [h, signed_minus, hmap, negative_eq_ok hne]
  · next hne _ _ hp hm => rw [signed_bare hp hm, positive_eq_ok hne]

end Herald.Number
