import Herald.Text.Utf8
import Mathlib.Data.List.Basic

/-!
# Texts survive their octets

What a text is written as in octets is read as that text.

* `scalar?_encodeChar`: the octets of a character, whatever comes after them.
* `decode_encode`: the octets of a text.
-/

namespace Herald.Utf8

variable {n : Nat}

/-! ## Octets -/

/-- An octet with a given number; comparisons with it are comparisons with the number. -/
theorem exists_octet (h : n < 0x100) : ∃ b : UInt8, UInt8.ofNat n = b ∧ b.toNat = n ∧
    ∀ m : UInt8, (b < m ↔ n < m.toNat) ∧ (b = m ↔ n = m.toNat) ∧ (m ≤ b ↔ m.toNat ≤ n) ∧
      (b ≤ m ↔ n ≤ m.toNat) := by
  have hb : (UInt8.ofNat n).toNat = n := by
    rw [UInt8.toNat_ofNat']; exact Nat.mod_eq_of_lt h
  refine ⟨_, rfl, hb, fun m => ⟨?_, ?_, ?_, ?_⟩⟩
  · rw [UInt8.lt_iff_toNat_lt, hb]
  · rw [← UInt8.toNat_inj, hb]
  · rw [UInt8.le_iff_toNat_le, hb]
  · rw [UInt8.le_iff_toNat_le, hb]

/-- An octet that continues a character holds six of its bits. -/
theorem exists_tail (m : Nat) : ∃ b : UInt8, UInt8.ofNat (0x80 + m % 64) = b ∧ isTail b = true ∧
    tailBits b = m % 64 ∧ ∀ l : UInt8, (l ≤ b ↔ l.toNat ≤ 0x80 + m % 64) ∧
      (b ≤ l ↔ 0x80 + m % 64 ≤ l.toNat) := by
  obtain ⟨b, hb, hn, hc⟩ := exists_octet (n := 0x80 + m % 64) (by omega)
  refine ⟨b, hb, ?_, by unfold tailBits; omega, fun l => ⟨(hc l).2.2.1, (hc l).2.2.2⟩⟩
  simp [isTail, hc]
  omega

/-! ## Characters -/

theorem scalar?_one (h : n < 0x80) (rest : List UInt8) :
    scalar? (UInt8.ofNat n :: rest) = some (Char.ofNat n, 0) := by
  obtain ⟨a, ha, hn, hc⟩ := exists_octet (n := n) (by omega)
  simp [ha, scalar?, hc, hn, h]

theorem scalar?_two (low : 0x80 ≤ n) (h : n < 0x800) (rest : List UInt8) :
    scalar? (UInt8.ofNat (0xC0 + n / 64) :: UInt8.ofNat (0x80 + n / 1 % 64) :: rest) =
      some (Char.ofNat n, 1) := by
  obtain ⟨a, ha, hn, hc⟩ := exists_octet (n := 0xC0 + n / 64) (by omega)
  obtain ⟨b, hb, ht, hbits, -⟩ := exists_tail (n / 1)
  have hv : (0xC0 + n / 64 - 0xC0) * 64 + n / 1 % 64 = n := by omega
  rw [ha, hb]
  simp only [scalar?, hc, ht, hn, hbits, hv]
  rw [if_neg (by simp; omega), if_neg (by simp; omega), if_pos (by simp; omega)]
  rfl

/-- Surrogates are no characters, and longer forms of shorter characters are none either. -/
theorem scalar?_three (low : 0x800 ≤ n) (h : n < 0xD800 ∨ 0xDFFF < n) (high : n < 0x10000)
    (rest : List UInt8) : scalar? (UInt8.ofNat (0xE0 + n / 0x1000) ::
      UInt8.ofNat (0x80 + n / 0x40 % 64) :: UInt8.ofNat (0x80 + n / 1 % 64) :: rest) =
      some (Char.ofNat n, 2) := by
  obtain ⟨a, ha, hn, hc⟩ := exists_octet (n := 0xE0 + n / 0x1000) (by omega)
  obtain ⟨b, hb, ht, hbits, hle⟩ := exists_tail (n / 0x40)
  obtain ⟨d, hd, ht', hbits', -⟩ := exists_tail (n / 1)
  have hv : ((0xE0 + n / 0x1000 - 0xE0) * 64 + n / 0x40 % 64) * 64 + n / 1 % 64 = n := by omega
  rw [ha, hb, hd]
  simp only [scalar?, hc, ht, ht', hn, hbits, hbits', hv]
  rw [if_neg (by simp; omega), if_neg (by simp; omega), if_neg (by simp), if_pos (by simp; omega)]
  refine if_pos ?_
  simp [hc, hle]
  omega

theorem scalar?_four (low : 0x10000 ≤ n) (high : n < 0x110000) (rest : List UInt8) :
    scalar? (UInt8.ofNat (0xF0 + n / 0x40000) :: UInt8.ofNat (0x80 + n / 0x1000 % 64) ::
      UInt8.ofNat (0x80 + n / 0x40 % 64) :: UInt8.ofNat (0x80 + n / 1 % 64) :: rest) =
      some (Char.ofNat n, 3) := by
  obtain ⟨a, ha, hn, hc⟩ := exists_octet (n := 0xF0 + n / 0x40000) (by omega)
  obtain ⟨b, hb, ht, hbits, hle⟩ := exists_tail (n / 0x1000)
  obtain ⟨d, hd, ht', hbits', -⟩ := exists_tail (n / 0x40)
  obtain ⟨e, he, ht'', hbits'', -⟩ := exists_tail (n / 1)
  have hv : (((0xF0 + n / 0x40000 - 0xF0) * 64 + n / 0x1000 % 64) * 64 + n / 0x40 % 64) * 64 +
    n / 1 % 64 = n := by omega
  rw [ha, hb, hd, he]
  simp only [scalar?, hc, ht, ht', ht'', hn, hbits, hbits', hbits'', hv]
  rw [if_neg (by simp; omega), if_neg (by simp; omega), if_neg (by simp; omega), if_neg (by simp),
    if_pos (by simp; omega)]
  refine if_pos ?_
  simp [hc, hle]
  omega

/-- The octets of a character are read as that character. -/
theorem scalar?_encodeChar (c : Char) (rest : List UInt8) : ∃ a more, encodeChar c = a :: more ∧
    scalar? (a :: (more ++ rest)) = some (c, more.length) := by
  have hc : c.toNat < 0xD800 ∨ 0xDFFF < c.toNat ∧ c.toNat < 0x110000 := c.valid
  have hof := Char.ofNat_toNat c
  unfold encodeChar
  generalize c.toNat = n at hc hof
  subst hof
  simp only
  split
  · next h => exact ⟨_, _, rfl, scalar?_one h rest⟩
  split
  · next low h => exact ⟨_, _, rfl, scalar?_two (by omega) h rest⟩
  split
  · next low high => exact ⟨_, _, rfl, scalar?_three (by omega) (by omega) high rest⟩
  · next low => exact ⟨_, _, rfl, scalar?_four (by omega) (by omega) rest⟩

theorem length_encodeChar_pos (c : Char) : 0 < (encodeChar c).length := by
  obtain ⟨a, more, h, -⟩ := scalar?_encodeChar c []
  rw [h]
  exact Nat.succ_pos _

/-! ## Texts -/

theorem decodeFrom_append (more rest : List UInt8) :
    decodeFrom more.length (more ++ rest) = decodeFrom 0 rest := by
  induction more with
  | nil => rfl
  | cons a more ih => exact ih

/-- The octets of a text are read as that text. -/
theorem decode_encode (s : String) : decode (encode s) = s.toList.map some := by
  rw [decode, encode]
  induction s.toList with
  | nil => rfl
  | cons c cs ih =>
    obtain ⟨a, more, e, h⟩ := scalar?_encodeChar c (cs.flatMap encodeChar)
    rw [List.flatMap_cons, e, List.cons_append, decodeFrom, h]
    simp only [decodeFrom_append, ih, List.map_cons]

/-- Two texts with the same octets are one. -/
theorem encode_injective : Function.Injective encode := fun s t h => by
  have hmap : s.toList.map some = t.toList.map some := by rw [← decode_encode, h, decode_encode]
  exact String.toList_inj.1 (List.map_injective_iff.2 (fun _ _ => Option.some.inj) hmap)

end Herald.Utf8
