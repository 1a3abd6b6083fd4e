import Herald.Arithmetic
import Herald.Text.Decimal

/-!
# Real numbers of free-form values

A number with a fraction or an exponent, or an integer beyond 64 bits, is kept as a finite
binary64 value. `ofNumeral?` reads it from its first twenty significant digits with one
multiplication or division by a power of ten; `text` writes the fewest digits that identify it.

* `Binary.readsBack`: a decimal lies among the reals that round to the value.
-/

namespace Herald

/-- A number as it is written: sign, digits before the point, digits after it, exponent. -/
structure Numeral where
  negative : Bool
  whole : List Nat
  fraction : List Nat
  exponent : Option Int
deriving DecidableEq, Repr

namespace Numeral

/-- The integer that a numeral without fraction and exponent stands for; `-0` is no integer. -/
def integer? (n : Numeral) : Option Int :=
  match n.fraction, n.exponent with
  | [], none =>
    let v := Decimal.value n.whole
    if n.negative then if v = 0 then none else some (-(v : Int)) else some v
  | _, _ => none

end Numeral

namespace Json

/-- A finite binary64 value, by its bits. -/
structure Real where
  bits : UInt64
deriving DecidableEq, Repr

/-! ## Reading -/

/-- The largest significand that is read exactly. -/
def significandMax : Nat := twoPow 64 - 1

/-- The digits that fit the significand, read on from `acc`, and how many of them were taken. -/
def takeSignificand : Nat → List Nat → Nat × Nat
  | acc, [] => (acc, 0)
  | acc, d :: ds =>
    if acc * 10 + d ≤ significandMax then
      let r := takeSignificand (acc * 10 + d) ds
      (r.1, r.2 + 1)
    else (acc, 0)

/-- Steps of `scale?`, each of which divides by `10 ^ 308`. A significand is below `10 ^ 20`, so three
of them leave nothing of it. -/
def scaleSteps : Nat := 8

/-- `f · 10 ^ exponent` by powers of ten up to `10 ^ 308`; `none` when it is no finite value. -/
def scale? : Nat → Float → Int → Option Float
  | 0, f, _ => if f == 0.0 then some f else none
  | steps + 1, f, exponent =>
    if exponent.natAbs ≤ 308 then
      let power := Float.ofScientific 1 false exponent.natAbs
      if 0 ≤ exponent then
        let r := f * power
        if r.isInf then none else some r
      else some (f / power)
    else if f == 0.0 then some f
    else if 0 ≤ exponent then none
    else scale? steps (f / Float.ofScientific 1 false 308) (exponent + 308)

/-- The greatest exponent, of either sign, that is taken at its word. Beyond it a value is zero or
too large. -/
def exponentMax : Nat := twoPow 31 - 1

/-- The value of a numeral; `none` when it is too large. -/
def Real.ofNumeral? (n : Numeral) : Option Real := do
  let w := takeSignificand 0 n.whole
  let whole := w.1
  let beyond := n.whole.length - w.2
  let f := takeSignificand whole n.fraction
  let base : Int := (beyond : Int) - (f.2 : Int)
  let magnitude ← match n.exponent with
    | none => scale? scaleSteps (Float.ofScientific f.1 false 0) base
    | some e =>
      if e.natAbs ≤ exponentMax then scale? scaleSteps (Float.ofScientific f.1 false 0) (base + e)
      else if f.1 = 0 ∨ e < 0 then some 0.0
      else none
  pure ⟨(if n.negative then -magnitude else magnitude).toBits⟩

/-! ## Writing -/

/-- A finite non-negative value `m · 2 ^ q`. -/
structure Binary where
  m : Nat
  q : Int
  /-- The gap to the value below is half the gap to the value above. -/
  narrowBelow : Bool

/-- The magnitude of a finite value. -/
def Real.binary (x : Real) : Binary :=
  let e := ((x.bits >>> 52) &&& 0x7FF).toNat
  let f := (x.bits &&& 0xFFFFFFFFFFFFF).toNat
  if e = 0 then ⟨f, -1074, false⟩ else ⟨twoPow 52 + f, (e : Int) - 1075, f = 0 && e > 1⟩

/-- `digits · 10 ^ exponent`. -/
structure Scientific where
  digits : Nat
  exponent : Int

/-- Compares `a · 10 ^ i` with `n · 2 ^ j`. -/
def compareScaled (a : Nat) (i : Int) (n : Nat) (j : Int) : Ordering :=
  compare (a * tenPow i.toNat * twoPow (-j).toNat) (n * twoPow j.toNat * tenPow (-i).toNat)

/-- The decimal lies among the reals that round to the value, ties to even. -/
def Binary.readsBack (x : Binary) (d : Scientific) : Bool :=
  let low := if x.narrowBelow then 4 * x.m - 1 else 4 * x.m - 2
  let high := 4 * x.m + 2
  let closed := x.m % 2 == 0
  let toLow := compareScaled d.digits d.exponent low (x.q - 2)
  let toHigh := compareScaled d.digits d.exponent high (x.q - 2)
  (toLow == .gt || (closed && toLow == .eq)) && (toHigh == .lt || (closed && toHigh == .eq))

/-- The value's lower neighbour on the grid of multiples of `10 ^ e`. -/
def Binary.floorAt (x : Binary) (e : Int) : Nat :=
  (x.m * twoPow x.q.toNat * tenPow (-e).toNat) / (twoPow (-x.q).toNat * tenPow e.toNat)

/-- The decimal on the grid of multiples of `10 ^ e` that reads back, the nearer one if two do and
the even one if they are equally near. -/
def Binary.onGrid? (x : Binary) (e : Int) : Option Scientific :=
  let d := x.floorAt e
  match x.readsBack ⟨d, e⟩, x.readsBack ⟨d + 1, e⟩ with
  | false, false => none
  | true, false => some ⟨d, e⟩
  | false, true => some ⟨d + 1, e⟩
  | true, true =>
    match compareScaled (2 * d + 1) e (2 * x.m) x.q with
    | .gt => some ⟨d, e⟩
    | .lt => some ⟨d + 1, e⟩
    | .eq => some ⟨if d % 2 = 0 then d else d + 1, e⟩

/-- The first grid, from the coarsest down, with a decimal that reads back. -/
def Binary.search (x : Binary) : Nat → Int → Scientific
  | 0, _ => ⟨x.m * twoPow x.q.toNat * Nat.pow 5 (-x.q).toNat, if x.q < 0 then x.q else 0⟩
  | steps + 1, e => (x.onGrid? e).getD (x.search steps (e - 1))

/-- The decimal exponent above the leading digit of every finite value. -/
def exponentTop : Int := 310

/-- The number of grids from `exponentTop` down to the one below the least digit of any value. -/
def gridCount : Nat := 310 + 345

/-- The fewest digits that identify a non-zero value. -/
def Binary.shortest (x : Binary) : Scientific := x.search gridCount exponentTop

/-- The text of a finite value: positional while the point is at most sixteen digits right or
five left of the first digit, with an exponent beyond that, and never without a fraction or an
exponent. -/
def Real.chars (x : Real) : List Char :=
  let sign := if x.bits >>> 63 = 1 then ['-'] else []
  let b := x.binary
  if b.m = 0 then sign ++ ['0', '.', '0']
  else
    let d := b.shortest
    let ds := Decimal.natChars d.digits
    let point := (ds.length : Int) + d.exponent
    sign ++
      if 0 ≤ d.exponent ∧ point ≤ 16 then
        ds ++ List.replicate d.exponent.toNat '0' ++ ['.', '0']
      else if 0 < point ∧ point ≤ 16 then
        ds.take point.toNat ++ '.' :: ds.drop point.toNat
      else if -5 < point ∧ point ≤ 0 then
        '0' :: '.' :: List.replicate (-point).toNat '0' ++ ds
      else
        ds.take 1 ++ (if ds.length = 1 then [] else '.' :: ds.drop 1) ++
          'e' :: Decimal.intChars (point - 1)

end Json

end Herald
