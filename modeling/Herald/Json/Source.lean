import Herald.Json.Value

/-!
# Texts as they were read

A `Source` is what a text in JSON says before anyone asks for it: numbers keep their spelling,
members keep their order and repetitions, and a text that holds a stray octet or half a surrogate
pair is marked as no text at all. A part that nobody asks for is never looked at, so such a text is
an error only where it is asked for.

* `Source.json?`: the canonical value of a source, all of it asked for.
* `Source.depth`: how deeply lists and objects are nested.
-/

namespace Herald

/-- A value as it was read; `none` stands for a text that is not valid. -/
inductive Source where
  | null
  | bool (b : Bool)
  | number (n : Numeral)
  | text (s : Option String)
  | list (items : List Source)
  | object (members : List (Option String × Source))
deriving Repr, Inhabited

namespace Source

mutual

/-- How deeply lists and objects are nested. -/
def depth : Source → Nat
  | .list items => depthOfAll items + 1
  | .object members => depthOfMembers members + 1
  | _ => 0

/-- The greatest depth among items. -/
def depthOfAll : List Source → Nat
  | [] => 0
  | v :: rest => max (depth v) (depthOfAll rest)

/-- The greatest depth among the values of members. -/
def depthOfMembers : List (Option String × Source) → Nat
  | [] => 0
  | (_, v) :: rest => max (depth v) (depthOfMembers rest)

end

/-- The greatest nesting depth of a text whose parts are asked for. -/
def maxDepth : Nat := 127

/-- The value of a number. -/
def number? (n : Numeral) : Option Json :=
  match n.integer? with
  | some i => if Json.integerFits i then some (.integer i) else (Json.Real.ofNumeral? n).map .real
  | none => (Json.Real.ofNumeral? n).map .real

mutual

/-- The canonical value of a source: of members with one name the last one counts. -/
def json? : Source → Option Json
  | .null => some .null
  | .bool b => some (.bool b)
  | .number n => number? n
  | .text s => s.map .text
  | .list items => (jsonOfAll? items).map .list
  | .object members => (jsonOfMembers? members []).map .object

/-- The canonical values of items. -/
def jsonOfAll? : List Source → Option (List Json)
  | [] => some []
  | v :: rest => do
    let w ← json? v
    let ws ← jsonOfAll? rest
    pure (w :: ws)

/-- The members read so far, with further ones put in their places. -/
def jsonOfMembers? : List (Option String × Source) → List (String × Json) → Option (List (String × Json))
  | [], acc => some acc
  | (name, v) :: rest, acc => do
    let n ← name
    let w ← json? v
    jsonOfMembers? rest (Json.insert n w acc)

end

/-! ## Plain parts -/

/-- The text that a source is. -/
def text? : Source → Option String
  | .text s => s
  | _ => none

/-- The truth value that a source is. -/
def bool? : Source → Option Bool
  | .bool b => some b
  | _ => none

/-- The integer that a source is, without fraction and exponent. -/
def integer? : Source → Option Int
  | .number n => n.integer?
  | _ => none

/-- The 64-bit signed integer that a source is. -/
def id? (s : Source) : Option Int64 := do
  let n ← s.integer?
  if -(twoPow 63 : Int) ≤ n ∧ n < twoPow 63 then some (Int64.ofInt n) else none

/-- The 64-bit unsigned integer that a source is. -/
def count? (s : Source) : Option Nat := do
  let n ← s.integer?
  if 0 ≤ n ∧ n < twoPow 64 then some n.toNat else none

/-- The list that a source is, item by item. -/
def list? {α : Type} (item? : Source → Option α) : Source → Option (List α)
  | .list items => items.mapM item?
  | _ => none

/-- `null` or something else. -/
def orNull? {α : Type} (value? : Source → Option α) : Source → Option (Option α)
  | .null => some none
  | s => (value? s).map some

/-- The free-form arguments that a source is, at most `depth` levels deep. -/
def arguments? (depth : Nat) (s : Source) : Option Arguments :=
  match s with
  | .object _ => if s.depth ≤ depth then s.json?.bind Arguments.ofJson? else none
  | _ => none

end Source

end Herald
