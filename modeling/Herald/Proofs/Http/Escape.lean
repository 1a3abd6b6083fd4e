import Herald.Http.Url
import Herald.Proofs.Text.Utf8
import Mathlib.Data.List.Flatten

/-!
# What escapes stand for

A text with escapes stands for octets: an escape for one, any other character for its own. Whoever escapes
a text changes nothing of that, as long as the characters of escapes are spared.

* `readingRec`: a text is read escape by escape.
* `unescape_escape`: escaping changes nothing of what a text means.
* `unescape_eq_iff`: the texts that mean themselves.
-/

namespace Herald.Url

variable {unfit : Char → Bool} {a b c : Char} {cs xs ys : List Char}

/-! ## Reading -/

theorem hexValue?_hexDigit : ∀ {n : Nat}, n < 16 → hexValue? (hexDigit n) = some n := by decide

/-- No escape starts with the character `c` before `cs`. -/
def StandsPlain (c : Char) (cs : List Char) : Prop :=
  ∀ a b rest, c = '%' → cs = a :: b :: rest → hexValue? a = none ∨ hexValue? b = none

/-- A text is read escape by escape, or character by character where no escape starts. -/
@[elab_as_elim]
theorem readingRec {motive : List Char → Prop} (nil : motive [])
    (escape : ∀ a b x y rest, hexValue? a = some x → hexValue? b = some y → motive rest →
      motive ('%' :: a :: b :: rest))
    (plain : ∀ c rest, StandsPlain c rest → motive rest → motive (c :: rest)) (cs : List Char) :
    motive cs := by
  fun_induction unescape cs with
  | case1 => exact nil
  | case2 a b rest x y hy hx ih => exact escape a b x y rest hx hy ih
  | case3 a b rest hnone ih =>
    refine plain _ _ ?_ ih
    rintro _ _ _ - ⟨⟩
    by_contra! hcon
    obtain ⟨x, hx⟩ := Option.ne_none_iff_exists'.1 hcon.1
    obtain ⟨y, hy⟩ := Option.ne_none_iff_exists'.1 hcon.2
    exact hnone x y hx hy
  | case4 c rest hstart ih =>
    refine plain _ _ ?_ ih
    rintro a b after rfl rfl
    exact (hstart a b after rfl rfl).elim

theorem unescape_escape_cons {x y : Nat} (ha : hexValue? a = some x) (hb : hexValue? b = some y) (cs : List Char) :
    unescape ('%' :: a :: b :: cs) = UInt8.ofNat (x * 16 + y) :: unescape cs := by
  simp only [unescape, ha, hb]

/-- A character with which no escape starts stands for itself. -/
theorem unescape_plain_cons (h : StandsPlain c cs) :
    unescape (c :: cs) = Utf8.encodeChar c ++ unescape cs := by
  rcases eq_or_ne c '%' with rfl | hc
  · match cs, h with
    | [], _ => rfl
    | [_], _ => rfl
    | a :: b :: rest, h =>
      rw [unescape]
      rcases h a b rest rfl rfl with hnone | hnone
      · rw [hnone]
        rfl
      · rw [hnone]
        cases hexValue? a <;> rfl
  · rw [unescape]
    rintro _ _ _ rfl
    exact absurd rfl hc

/-! ## Escaping -/

theorem unescape_escapeOctet (octet : UInt8) (cs : List Char) :
    unescape (escapeOctet octet ++ cs) = octet :: unescape cs := by
  have hlt : octet.toNat < 256 := octet.toNat_lt
  have hhigh : hexValue? (hexDigit (octet.toNat / 16)) = some (octet.toNat / 16) := hexValue?_hexDigit (by omega)
  have hlow : hexValue? (hexDigit (octet.toNat % 16)) = some (octet.toNat % 16) := hexValue?_hexDigit (by omega)
  have hsum : octet.toNat / 16 * 16 + octet.toNat % 16 = octet.toNat := by omega
  simp only [escapeOctet, List.cons_append, List.nil_append, unescape, hhigh, hlow, hsum, UInt8.ofNat_toNat]

theorem unescape_escapeChar (c : Char) (cs : List Char) :
    unescape (escapeChar c ++ cs) = Utf8.encodeChar c ++ unescape cs := by
  unfold escapeChar
  induction Utf8.encodeChar c with
  | nil => rfl
  | cons octet octets ih =>
    rw [List.flatMap_cons, List.append_assoc, unescape_escapeOctet, ih, List.cons_append]

/-- The characters that are escaped are none of those that escapes are made of. -/
def Spares (unfit : Char → Bool) : Prop := ∀ c, unfit c = true → c ≠ '%' ∧ hexValue? c = none

theorem Spares.fit (h : Spares unfit) (hc : c = '%' ∨ hexValue? c ≠ none) : unfit c = false := by
  by_contra hcon
  obtain ⟨hpercent, hhex⟩ := h c (by simpa using hcon)
  tauto

theorem spares_unfitPath : Spares unfitPath := by
  intro c h
  simp only [unfitPath, isControl, Bool.or_eq_true, decide_eq_true_eq, List.contains_iff_mem] at h
  rcases h with h | h
  · have hc : c ≠ '%' := by
      rintro rfl
      revert h
      decide
    have hle (d : Char) : d ≤ c ↔ d.toNat ≤ c.toNat := Iff.rfl
    have hge (d : Char) : c ≤ d ↔ c.toNat ≤ d.toNat := Iff.rfl
    refine ⟨hc, ?_⟩
    simp only [hexValue?, hle, hge, Char.reduceToNat]
    rw [if_neg (by omega), if_neg (by omega), if_neg (by omega)]
  · simp only [List.mem_cons, List.not_mem_nil, or_false] at h
    rcases h with rfl | rfl | rfl | rfl | rfl | rfl | rfl | rfl | rfl | rfl <;> decide

theorem escape_cons (unfit : Char → Bool) (c : Char) (cs : List Char) :
    escape unfit (c :: cs) = (if unfit c then escapeChar c else [c]) ++ escape unfit cs := rfl

theorem escapeChar_eq_cons (c : Char) : ∃ ys, escapeChar c = '%' :: ys := by
  obtain ⟨octet, octets, h⟩ := List.exists_cons_of_length_pos (Utf8.length_encodeChar_pos c)
  exact ⟨_, by rw [escapeChar, h]; rfl⟩

/-- Only a hexadecimal digit begins what is a hexadecimal digit when escaped. -/
theorem eq_cons_of_escape_eq_cons (hhex : hexValue? a ≠ none) (h : escape unfit cs = a :: ys) :
    ∃ rest, cs = a :: rest ∧ ys = escape unfit rest := by
  cases cs with
  | nil => cases h
  | cons c rest =>
    rw [escape_cons] at h
    split at h
    · obtain ⟨zs, hzs⟩ := escapeChar_eq_cons c
      rw [hzs] at h
      cases h
      exact absurd rfl hhex
    · cases h
      exact ⟨rest, rfl, rfl⟩

/-- Escaping changes nothing of what a text means. -/
theorem unescape_escape (h : Spares unfit) (cs : List Char) : unescape (escape unfit cs) = unescape cs := by
  induction cs using readingRec with
  | nil => rfl
  | escape a b x y rest hx hy ih =>
    have hpercent : unfit '%' = false := h.fit (.inl rfl)
    have ha : unfit a = false := h.fit (.inr (by rw [hx]; nofun))
    have hb : unfit b = false := h.fit (.inr (by rw [hy]; nofun))
    rw [unescape_escape_cons hx hy, ← ih, ← unescape_escape_cons hx hy]
    simp [escape_cons, hpercent, ha, hb]
  | plain c rest hc ih =>
    rw [unescape_plain_cons hc, escape_cons, ← ih]
    split
    · exact unescape_escapeChar c _
    · -- what is escaped begins with no digit that it did not begin with before
      refine unescape_plain_cons fun a b after hpercent hescape => ?_
      by_contra! hcon
      obtain ⟨rest, rfl, hrest⟩ := eq_cons_of_escape_eq_cons hcon.1 hescape
      obtain ⟨rest, rfl, -⟩ := eq_cons_of_escape_eq_cons hcon.2 hrest.symm
      have := hc a b rest hpercent rfl
      tauto

/-! ## Octets -/

/-- A text stands for at most as many octets as it has. -/
theorem length_unescape_le (cs : List Char) : (unescape cs).length ≤ (cs.flatMap Utf8.encodeChar).length := by
  induction cs using readingRec with
  | nil => exact Nat.le_refl _
  | escape a b x y rest hx hy ih =>
    rw [unescape_escape_cons hx hy]
    have := Utf8.length_encodeChar_pos '%'
    simp only [List.flatMap_cons, List.length_append, List.length_cons]
    omega
  | plain c rest hc ih =>
    rw [unescape_plain_cons hc]
    simpa using ih

/-- An escape stands in the text. -/
def HoldsEscape (cs : List Char) : Prop :=
  ∃ a b, hexValue? a ≠ none ∧ hexValue? b ≠ none ∧ ['%', a, b] <:+: cs

theorem HoldsEscape.cons (h : HoldsEscape cs) (c : Char) : HoldsEscape (c :: cs) := by
  obtain ⟨a, b, ha, hb, hinfix⟩ := h
  exact ⟨a, b, ha, hb, List.infix_cons hinfix⟩

theorem holdsEscape_cons (h : StandsPlain c cs) : HoldsEscape (c :: cs) ↔ HoldsEscape cs := by
  refine ⟨fun ⟨a, b, ha, hb, hinfix⟩ => ?_, fun h => h.cons c⟩
  rcases List.infix_cons_iff.1 hinfix with ⟨after, hprefix⟩ | hinfix
  · cases hprefix
    have hnone := h a b after rfl rfl
    tauto
  · exact ⟨a, b, ha, hb, hinfix⟩

/-- The texts that stand for themselves are those without escapes. -/
theorem unescape_eq_iff (cs : List Char) : unescape cs = cs.flatMap Utf8.encodeChar ↔ ¬ HoldsEscape cs := by
  induction cs using readingRec with
  | nil => simp [HoldsEscape, unescape]
  | escape a b x y rest hx hy ih =>
    have hholds : HoldsEscape ('%' :: a :: b :: rest) :=
      ⟨a, b, by simp [hx], by simp [hy], (List.prefix_append ['%', a, b] rest).isInfix⟩
    refine iff_of_false (fun heq => ?_) (not_not.2 hholds)
    have hlength := congrArg List.length heq
    have hpercent := Utf8.length_encodeChar_pos '%'
    have ha := Utf8.length_encodeChar_pos a
    have hle := length_unescape_le rest
    rw [unescape_escape_cons hx hy] at hlength
    simp only [List.flatMap_cons, List.length_append, List.length_cons] at hlength
    omega
  | plain c rest hc ih =>
    rw [unescape_plain_cons hc, List.flatMap_cons, List.append_cancel_left_eq, ih, holdsEscape_cons hc]

/-- A part of a text that has all of its octets is the whole text. -/
theorem eq_of_sublist_of_length_le (h : List.Sublist xs ys)
    (hlength : (ys.flatMap Utf8.encodeChar).length ≤ (xs.flatMap Utf8.encodeChar).length) : xs = ys := by
  have heq : Utf8.encode (String.ofList xs) = Utf8.encode (String.ofList ys) := by
    simpa [Utf8.encode] using (h.flatMap Utf8.encodeChar).eq_of_length_le hlength
  exact String.ofList_injective (Utf8.encode_injective heq)

end Herald.Url
