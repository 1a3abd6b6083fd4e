import Herald.Json.Printer
import Herald.Json.Source
import Herald.Proofs.Text.Decimal

/-!
# How values may be written

A value is a sequence of tokens, and there may be white space in front of each token and behind the
last one. A number is written digit by digit, and a character inside quotes stands for itself or is
written as an escape, in one of the ways of RFC 8259.

* `Source.tokens`: the tokens of a value.
* `Source.Written`: a text is one of those that say a value.
* `Source.written_compact`: the compact text of a value says that value.
-/

namespace Herald

/-! ## Numbers -/

namespace Numeral

/-- The ways to write an exponent. -/
inductive ExponentWritten : Option Int → List Char → Prop
  | absent : ExponentWritten none []
  | bare {e : Char} {ds : List Nat} : e ∈ ['e', 'E'] → ds ≠ [] → (∀ d ∈ ds, d < 10) →
    ExponentWritten (some (Decimal.value ds)) (e :: ds.map Decimal.digitChar)
  | plus {e : Char} {ds : List Nat} : e ∈ ['e', 'E'] → ds ≠ [] → (∀ d ∈ ds, d < 10) →
    ExponentWritten (some (Decimal.value ds)) (e :: '+' :: ds.map Decimal.digitChar)
  | minus {e : Char} {ds : List Nat} : e ∈ ['e', 'E'] → ds ≠ [] → (∀ d ∈ ds, d < 10) →
    ExponentWritten (some (-(Decimal.value ds : Int))) (e :: '-' :: ds.map Decimal.digitChar)

/-- The digits after the point, and the point; nothing if there are none. -/
def fractionChars : List Nat → List Char
  | [] => []
  | ds => '.' :: ds.map Decimal.digitChar

/-- The ways to write a number. Only a lone zero comes first among the digits before the point. -/
inductive Written : Numeral → List Char → Prop
  | mk {negative : Bool} {whole fraction : List Nat} {exponent : Option Int} {x : List Char} :
    whole = [0] ∨ (∃ d ds, whole = d :: ds ∧ d ≠ 0) → (∀ d ∈ whole, d < 10) →
    (∀ d ∈ fraction, d < 10) → ExponentWritten exponent x →
    Written ⟨negative, whole, fraction, exponent⟩
      ((if negative then ['-'] else []) ++
        (whole.map Decimal.digitChar ++ (fractionChars fraction ++ x)))

/-- The numeral of an integer, as it is written. -/
def ofInt : Int → Numeral
  | .ofNat n => ⟨false, Decimal.digits n, [], none⟩
  | .negSucc n => ⟨true, Decimal.digits (n + 1), [], none⟩

theorem integer?_ofInt (n : Int) : (ofInt n).integer? = some n := by
  cases n with
  | ofNat n => simp [ofInt, integer?, Decimal.value_digits]
  | negSucc n =>
    have h : -((n + 1 : Nat) : Int) = Int.negSucc n := rfl
    simp [ofInt, integer?, Decimal.value_digits, ← h]

theorem written_natChars (negative : Bool) (n : Nat) :
    Written ⟨negative, Decimal.digits n, [], none⟩
      ((if negative then ['-'] else []) ++ Decimal.natChars n) := by
  have h : Written ⟨negative, Decimal.digits n, [], none⟩ _ :=
    .mk ((Decimal.digits_cases n).imp And.right id) (fun _ => Decimal.lt_ten_of_mem_digits)
      (fun _ h => nomatch h) .absent
  simpa [fractionChars, Decimal.natChars] using h

theorem written_intChars (n : Int) : (ofInt n).Written (Decimal.intChars n) := by
  cases n with
  | ofNat n => exact written_natChars false n
  | negSucc n => exact written_natChars true (n + 1)

end Numeral

/-! ## Texts in quotes -/

namespace Source

/-- A hexadecimal digit in lower and in upper case. -/
def hexSpellings (d : Nat) : List Char :=
  ["0123456789abcdef", "0123456789ABCDEF"].filterMap (·.toList[d]?)

/-- The characters that have an escape of one letter, each with its letter. -/
def shortEscapes : List (Char × Char) :=
  [('"', '"'), ('\\', '\\'), ('/', '/'), ('\x08', 'b'), ('\x0c', 'f'), ('\n', 'n'), ('\r', 'r'),
    ('\t', 't')]

/-- The ways to write a 16-bit unit as an escape. -/
inductive UnitWritten : Nat → List Char → Prop
  | mk {a b c d : Nat} {w x y z : Char} : w ∈ hexSpellings a → x ∈ hexSpellings b →
    y ∈ hexSpellings c → z ∈ hexSpellings d →
    UnitWritten (((a * 16 + b) * 16 + c) * 16 + d) ['\\', 'u', w, x, y, z]

/-- The ways to write a character in quotes. -/
inductive CharWritten (c : Char) : List Char → Prop
  | plain : c ≠ '"' → c ≠ '\\' → 0x20 ≤ c.toNat → CharWritten c [c]
  | short {l : Char} : (c, l) ∈ shortEscapes → CharWritten c ['\\', l]
  | unit {w : List Char} : UnitWritten c.toNat w → CharWritten c w
  /-- A character beyond 16 bits is two units, each of which holds ten bits of it. -/
  | pair {high low : Nat} {w x : List Char} : UnitWritten (0xD800 + high) w →
    UnitWritten (0xDC00 + low) x → high < 0x400 → low < 0x400 →
    c.toNat = 0x10000 + high * 0x400 + low → CharWritten c (w ++ x)

/-- The ways to write characters in quotes. -/
inductive CharsWritten : List Char → List Char → Prop
  | nil : CharsWritten [] []
  | cons {c : Char} {cs w ws : List Char} : CharWritten c w → CharsWritten cs ws →
    CharsWritten (c :: cs) (w ++ ws)

theorem charWritten_escape (c : Char) : CharWritten c (Json.escape c) := by
  unfold Json.escape
  -- Seven characters have an escape of one letter.
  iterate 7
    split
    · next h => subst h; exact .short (by decide)
  split
  · next h =>
    have hall : ∀ d < 16, Json.hexChar d ∈ hexSpellings d := by decide
    have hz : '0' ∈ hexSpellings 0 := by decide
    have hu := UnitWritten.mk hz hz (hall (c.toNat / 16) (by omega)) (hall (c.toNat % 16) (by omega))
    rw [show ((0 * 16 + 0) * 16 + c.toNat / 16) * 16 + c.toNat % 16 = c.toNat by omega] at hu
    exact .unit hu
  · next hq hb _ _ _ _ _ hc => exact .plain hq hb (Nat.le_of_not_lt hc)

theorem charsWritten_escape (cs : List Char) : CharsWritten cs (cs.flatMap Json.escape) := by
  induction cs with
  | nil => exact .nil
  | cons c cs ih => exact .cons (charWritten_escape c) ih

/-! ## Tokens -/

/-- What a text in JSON is made of. -/
inductive Token where
  /-- A bracket, a brace, a colon or a comma. -/
  | mark (c : Char)
  | null
  | bool (b : Bool)
  | number (n : Numeral)
  | text (s : Option String)

/-- The ways to write a token; there is none for what is no text. -/
inductive Token.Written : Token → List Char → Prop
  | mark {c : Char} : c ∈ ['[', ']', '{', '}', ':', ','] → Written (.mark c) [c]
  | null : Written .null ['n', 'u', 'l', 'l']
  | true : Written (.bool true) ['t', 'r', 'u', 'e']
  | false : Written (.bool false) ['f', 'a', 'l', 's', 'e']
  | number {n : Numeral} {w : List Char} : n.Written w → Written (.number n) w
  | text {s : String} {w : List Char} : CharsWritten s.toList w →
    Written (.text s) ('"' :: (w ++ ['"']))

mutual

/-- The tokens of a value. -/
def tokens : Source → List Token
  | .null => [.null]
  | .bool b => [.bool b]
  | .number n => [.number n]
  | .text s => [.text s]
  | .list [] => [.mark '[', .mark ']']
  | .list (v :: rest) => .mark '[' :: (tokens v ++ itemTokens rest)
  | .object [] => [.mark '{', .mark '}']
  | .object ((name, v) :: rest) =>
    .mark '{' :: .text name :: .mark ':' :: (tokens v ++ memberTokens rest)

/-- The tokens of the further items of a list, up to its bracket. -/
def itemTokens : List Source → List Token
  | [] => [.mark ']']
  | v :: rest => .mark ',' :: (tokens v ++ itemTokens rest)

/-- The tokens of the further members of an object, up to its brace. -/
def memberTokens : List (Option String × Source) → List Token
  | [] => [.mark '}']
  | (name, v) :: rest => .mark ',' :: .text name :: .mark ':' :: (tokens v ++ memberTokens rest)

end

/-- White space only. -/
def Blank (cs : List Char) : Prop := ∀ c ∈ cs, c ∈ [' ', '\n', '\t', '\r']

/-- The ways to write tokens one after the other. -/
inductive TokensWritten : List Token → List Char → Prop
  | nil {s : List Char} : Blank s → TokensWritten [] s
  | cons {t : Token} {ts : List Token} {s w cs : List Char} : Blank s → t.Written w →
    TokensWritten ts cs → TokensWritten (t :: ts) (s ++ (w ++ cs))

/-- A text says a value: it is one of the ways to write the tokens of the value. -/
def Written (v : Source) (text : String) : Prop := TokensWritten v.tokens text.toList

end Source

/-! ## Compact text -/

namespace Json

mutual

/-- The value holds no real number. -/
def isPlain : Json → Bool
  | .real _ => false
  | .list items => allPlain items
  | .object members => allMembersPlain members
  | _ => true

/-- Every item is plain. -/
def allPlain : List Json → Bool
  | [] => true
  | v :: rest => isPlain v && allPlain rest

/-- Every member's value is plain. -/
def allMembersPlain : List (String × Json) → Bool
  | [] => true
  | (_, v) :: rest => isPlain v && allMembersPlain rest

end

mutual

/-- What a plain value says. -/
def toSource : Json → Source
  | .null => .null
  | .bool b => .bool b
  | .integer n => .number (.ofInt n)
  | .real _ => .null
  | .text s => .text (some s)
  | .list items => .list (sources items)
  | .object members => .object (memberSources members)

/-- What items say. -/
def sources : List Json → List Source
  | [] => []
  | v :: rest => toSource v :: sources rest

/-- What members say. -/
def memberSources : List (String × Json) → List (Option String × Source)
  | [] => []
  | (name, v) :: rest => (some name, toSource v) :: memberSources rest

end

end Json

namespace Source

variable {ts : List Token} {cs : List Char}

/-- Without white space. -/
theorem TokensWritten.next {t : Token} {w : List Char} (h : TokensWritten ts cs)
    (ht : t.Written w) : TokensWritten (t :: ts) (w ++ cs) :=
  .cons (s := []) (fun _ h => nomatch h) ht h

theorem TokensWritten.mark (h : TokensWritten ts cs) (c : Char)
    (hc : c ∈ ['[', ']', '{', '}', ':', ','] := by decide) :
    TokensWritten (.mark c :: ts) (c :: cs) :=
  h.next (.mark hc)

theorem TokensWritten.text (h : TokensWritten ts cs) (s : String) :
    TokensWritten (.text s :: ts) (Json.quoted s ++ cs) :=
  h.next (.text (charsWritten_escape s.toList))

mutual

theorem tokensWritten_chars (v : Json) (hv : v.isPlain = true) {ts : List Token} {cs : List Char}
    (h : TokensWritten ts cs) : TokensWritten (v.toSource.tokens ++ ts) (v.chars ++ cs) := by
  match v with
  | .null => exact h.next .null
  | .bool true => exact h.next .true
  | .bool false => exact h.next .false
  | .integer n => exact h.next (.number (Numeral.written_intChars n))
  | .text s => exact h.text s
  | .list [] => exact (h.mark ']').mark '['
  | .list (v :: vs) =>
    obtain ⟨hv, hvs⟩ := Bool.and_eq_true_iff.1 hv
    have e := tokensWritten_chars v hv (tokensWritten_itemChars vs hvs h)
    simpa [Json.chars, Json.toSource, Json.sources, tokens] using e.mark '['
  | .object [] => exact (h.mark '}').mark '{'
  | .object ((name, v) :: ms) =>
    obtain ⟨hv, hms⟩ := Bool.and_eq_true_iff.1 hv
    have e := tokensWritten_chars v hv (tokensWritten_memberChars ms hms h)
    simpa [Json.chars, Json.toSource, Json.memberSources, tokens] using
      ((e.mark ':').text name).mark '{'

theorem tokensWritten_itemChars (vs : List Json) (hv : Json.allPlain vs = true) {ts : List Token}
    {cs : List Char} (h : TokensWritten ts cs) :
    TokensWritten (itemTokens (Json.sources vs) ++ ts) (Json.itemChars vs ++ cs) := by
  match vs with
  | [] => exact h.mark ']'
  | v :: vs =>
    obtain ⟨hv, hvs⟩ := Bool.and_eq_true_iff.1 hv
    have e := tokensWritten_chars v hv (tokensWritten_itemChars vs hvs h)
    simpa [Json.itemChars, Json.sources, itemTokens] using e.mark ','

theorem tokensWritten_memberChars (ms : List (String × Json)) (hv : Json.allMembersPlain ms = true)
    {ts : List Token} {cs : List Char} (h : TokensWritten ts cs) :
    TokensWritten (memberTokens (Json.memberSources ms) ++ ts) (Json.memberChars ms ++ cs) := by
  match ms with
  | [] => exact h.mark '}'
  | (name, v) :: ms =>
    obtain ⟨hv, hms⟩ := Bool.and_eq_true_iff.1 hv
    have e := tokensWritten_chars v hv (tokensWritten_memberChars ms hms h)
    simpa [Json.memberChars, Json.memberSources, memberTokens] using
      ((e.mark ':').text name).mark ','

end

/-- The compact text of a value says that value. -/
theorem written_compact {v : Json} (h : v.isPlain = true) : v.toSource.Written v.compact := by
  have e := tokensWritten_chars v h (.nil (s := []) fun _ h => nomatch h)
  rwa [List.append_nil, List.append_nil, ← String.toList_ofList (l := v.chars)] at e

end Source

end Herald
