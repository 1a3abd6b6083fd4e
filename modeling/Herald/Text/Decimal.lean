/-!
# Decimal text of numbers

`digits n` are the decimal digits of `n`, the most significant first and none of them a leading
zero (`0` itself has one digit). Identifiers, counts and durations are all written this way.

* `value_digits`: the digits of a number have that number as their value.
-/

namespace Herald.Decimal

/-- The digits of `n`, the least significant first; `fuel` bounds their number. -/
def digitsRev : Nat → Nat → List Nat
  | 0, _ => []
  | fuel + 1, n => if n < 10 then [n] else n % 10 :: digitsRev fuel (n / 10)

/-- The digits of `n`, the most significant first. -/
def digits (n : Nat) : List Nat := (digitsRev (n + 1) n).reverse

/-- The number that a list of digits stands for. -/
def value (ds : List Nat) : Nat := ds.foldl (fun acc d => 10 * acc + d) 0

theorem foldr_digitsRev (fuel n : Nat) (h : n < fuel) :
    (digitsRev fuel n).foldr (fun d acc => 10 * acc + d) 0 = n := by
  induction fuel generalizing n with
  | zero => omega
  | succ k ih =>
    unfold digitsRev
    split
    · simp
    · rw [List.foldr_cons, ih (n / 10) (by omega)]
      omega

theorem value_digits (n : Nat) : value (digits n) = n := by
  rw [value, digits, List.foldl_reverse]
  exact foldr_digitsRev (n + 1) n (Nat.lt_succ_self n)

/-- The character of a digit below ten. -/
def digitChar (d : Nat) : Char := Char.ofNat (48 + d)

/-- The digit that a character stands for. -/
def digit? (c : Char) : Option Nat := if c.isDigit then some (c.toNat - 48) else none

/-- The characters of a natural number. -/
def natChars (n : Nat) : List Char := (digits n).map digitChar

/-- The characters of an integer, a minus sign first if it is negative. -/
def intChars : Int → List Char
  | .ofNat n => natChars n
  | .negSucc n => '-' :: natChars (n + 1)

/-- The text of a natural number. -/
def ofNat (n : Nat) : String := String.ofList (natChars n)

/-- The text of an integer. -/
def ofInt (n : Int) : String := String.ofList (intChars n)

/-- The text of a 64-bit identifier. -/
def ofId (n : Int64) : String := ofInt n.toInt

end Herald.Decimal
