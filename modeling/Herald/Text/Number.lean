import Herald.Arithmetic
import Herald.Text.Decimal

/-!
# Whole numbers from text

A number is written with decimal digits after an optional sign; a minus sign only where negative
numbers exist. A text that is no such number, or one out of range, is told apart by a
`NumberProblem`: characters are looked at from left to right, and the first thing wrong is the one
reported.
-/

namespace Herald

/-- Why a text is not a number of a range. -/
inductive NumberProblem where
  | empty
  | invalidDigit
  | tooLarge
  | tooSmall
deriving DecidableEq, Repr

/-- The text of a problem. -/
def NumberProblem.message : NumberProblem → String
  | .empty => "cannot parse integer from empty string"
  | .invalidDigit => "invalid digit found in string"
  | .tooLarge => "number too large to fit in target type"
  | .tooSmall => "number too small to fit in target type"

namespace Number

/-- The number of digits read on from `acc`, which must not exceed `most`. -/
def magnitude (most : Nat) (problem : NumberProblem) : Nat → List Char → Except NumberProblem Nat
  | acc, [] => .ok acc
  | acc, c :: rest =>
    match Decimal.digit? c with
    | none => .error .invalidDigit
    | some d =>
      if most < 10 * acc + d then .error problem
      else magnitude most problem (10 * acc + d) rest

/-- The natural number up to `most` that a text says. -/
def unsigned (most : Nat) (s : String) : Except NumberProblem Nat :=
  match s.toList with
  | [] => .error .empty
  | ['+'] => .error .invalidDigit
  | '+' :: rest => magnitude most .tooLarge 0 rest
  | rest => magnitude most .tooLarge 0 rest

/-- The signed 64-bit integer that a text says. -/
def signed (s : String) : Except NumberProblem Int :=
  match s.toList with
  | [] => .error .empty
  | ['+'] => .error .invalidDigit
  | ['-'] => .error .invalidDigit
  | '+' :: rest => (magnitude (twoPow 63 - 1) .tooLarge 0 rest).map Int.ofNat
  | '-' :: rest => (magnitude (twoPow 63) .tooSmall 0 rest).map fun n => -(n : Int)
  | rest => (magnitude (twoPow 63 - 1) .tooLarge 0 rest).map Int.ofNat

end Number

end Herald
