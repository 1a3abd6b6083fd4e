/-!
# UTF-16

Pairs of octets as characters. A unit that is half of a pair without the other half is stray, and so is
an octet that is left over.

* `decode`: the characters of octets, `none` for what is stray.
-/

namespace Herald.Utf16

/-- In which order the octets of a unit come. -/
inductive Order where
  | little
  | big
deriving DecidableEq, Repr

/-- The unit that two octets make. -/
def Order.unit : Order → UInt8 → UInt8 → Nat
  | little, a, b => b.toNat * 0x100 + a.toNat
  | big, a, b => a.toNat * 0x100 + b.toNat

/-- The first half of a pair. -/
def isHigh (unit : Nat) : Bool := 0xD800 ≤ unit && unit ≤ 0xDBFF

/-- The second half of a pair. -/
def isLow (unit : Nat) : Bool := 0xDC00 ≤ unit && unit ≤ 0xDFFF

/-- The character of a pair. -/
def pair (high low : Nat) : Char := Char.ofNat (0x10000 + (high - 0xD800) * 0x400 + (low - 0xDC00))

/-- The character of a unit that is no first half. -/
def single? (unit : Nat) : Option Char := if isLow unit then none else some (Char.ofNat unit)

/-- The characters of octets, `none` for what is stray. What is left over after a first half is stray with
it. -/
def decode (order : Order) : List UInt8 → List (Option Char)
  | [] => []
  | [_] => [none]
  | [a, b] => if isHigh (order.unit a b) then [none] else [single? (order.unit a b)]
  | [a, b, _] => if isHigh (order.unit a b) then [none] else [single? (order.unit a b), none]
  | a :: b :: c :: d :: rest =>
    if isHigh (order.unit a b) then
      if isLow (order.unit c d) then some (pair (order.unit a b) (order.unit c d)) :: decode order rest
      else none :: decode order (c :: d :: rest)
    else single? (order.unit a b) :: decode order (c :: d :: rest)

end Herald.Utf16
