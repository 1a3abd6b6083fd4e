/-!
# White space

The characters with the Unicode property `White_Space`, and texts without them at either end.
-/

namespace Herald.Text

/-- The code points with the property `White_Space` (Unicode 17.0), as closed ranges. -/
def blankRanges : List (Nat × Nat) :=
  [(0x09, 0x0D), (0x20, 0x20), (0x85, 0x85), (0xA0, 0xA0), (0x1680, 0x1680), (0x2000, 0x200A),
    (0x2028, 0x2029), (0x202F, 0x202F), (0x205F, 0x205F), (0x3000, 0x3000)]

/-- A character with the property `White_Space`. -/
def isBlank (c : Char) : Bool := blankRanges.any fun r => r.1 ≤ c.toNat && c.toNat ≤ r.2

/-- `cs` without the characters at its end that satisfy `p`. -/
def dropTail (p : Char → Bool) (cs : List Char) : List Char := (cs.reverse.dropWhile p).reverse

/-- `s` without white space at either end. -/
def trim (s : String) : String := String.ofList (dropTail isBlank (s.toList.dropWhile isBlank))

end Herald.Text
