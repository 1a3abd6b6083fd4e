import Herald.Json.Source
import Herald.Text.Utf8

/-!
# Reading

`Source.ofChars?` reads one value that takes up a whole text, white space around it apart. The
grammar is that of RFC 8259. A text in quotes may hold anything but raw control characters and
malformed escapes; whether it is valid text is noted in the source and decided by who asks for it.

The reader takes characters off the front of a list. `value`, `items` and `members` spend one unit
of fuel for each value and each separator, and every one of them takes a character, so the length
of the text is fuel enough.
-/

namespace Herald.Source

/-- Text to be read; `none` is a stray octet. -/
abbrev Chars := List (Option Char)

/-- White space between tokens. -/
def isSpace (c : Option Char) : Bool :=
  c == some ' ' || c == some '\n' || c == some '\t' || c == some '\r'

/-- The text after its leading white space. -/
def skipSpace (s : Chars) : Chars := s.dropWhile isSpace

/-! ## Numbers -/

/-- The digits that a text begins with, and the rest. -/
def digits : Chars → List Nat × Chars
  | some c :: s =>
    match Decimal.digit? c with
    | some d => let r := digits s; (d :: r.1, r.2)
    | none => ([], some c :: s)
  | s => ([], s)

/-- The digits before the point: a lone zero, or digits of which the first is not zero. -/
def wholePart (s : Chars) : Option (List Nat × Chars) :=
  match s with
  | some '0' :: rest => some ([0], rest)
  | _ => match digits s with
    | ([], _) => none
    | r => some r

/-- The digits after the point; none if there is no point. -/
def fractionPart : Chars → Option (List Nat × Chars)
  | some '.' :: s => match digits s with
    | ([], _) => none
    | r => some r
  | s => some ([], s)

/-- The exponent, if there is one. -/
def exponentPart (s : Chars) : Option (Option Int × Chars) :=
  let signed (negative : Bool) (s : Chars) : Option (Option Int × Chars) :=
    match digits s with
    | ([], _) => none
    | (ds, rest) =>
      let v : Int := Decimal.value ds
      some (some (if negative then -v else v), rest)
  match s with
  | some e :: rest =>
    if e = 'e' ∨ e = 'E' then
      match rest with
      | some '+' :: rest => signed false rest
      | some '-' :: rest => signed true rest
      | rest => signed false rest
    else some (none, s)
  | _ => some (none, s)

/-- A number whose sign has been read. -/
def unsigned (negative : Bool) (s : Chars) : Option (Source × Chars) := do
  let (whole, s) ← wholePart s
  let (fraction, s) ← fractionPart s
  let (exponent, s) ← exponentPart s
  pure (.number ⟨negative, whole, fraction, exponent⟩, s)

/-! ## Texts -/

/-- A piece of a text in quotes. -/
inductive Piece where
  | char (c : Char)
  /-- A stray octet. -/
  | stray
  /-- A 16-bit unit that was written as an escape. -/
  | unit (n : Nat)

/-- The value of a hexadecimal digit. -/
def hex? : Option Char → Option Nat
  | some c =>
    if c.isDigit then some (c.toNat - 48)
    else if 'a' ≤ c ∧ c ≤ 'f' then some (c.toNat - 87)
    else if 'A' ≤ c ∧ c ≤ 'F' then some (c.toNat - 55)
    else none
  | none => none

/-- The character of an escape of one letter. -/
def shortEscape? : Char → Option Char
  | '"' => some '"'
  | '\\' => some '\\'
  | '/' => some '/'
  | 'b' => some '\x08'
  | 'f' => some '\x0c'
  | 'n' => some '\n'
  | 'r' => some '\r'
  | 't' => some '\t'
  | _ => none

/-- The pieces up to the closing quote, and the text after it. -/
def pieces : Chars → Option (List Piece × Chars)
  | [] => none
  | some '"' :: s => some ([], s)
  | some '\\' :: some 'u' :: a :: b :: c :: d :: s => do
    let n := (((← hex? a) * 16 + (← hex? b)) * 16 + (← hex? c)) * 16 + (← hex? d)
    let (ps, rest) ← pieces s
    pure (.unit n :: ps, rest)
  | some '\\' :: some l :: s => do
    let c ← shortEscape? l
    let (ps, rest) ← pieces s
    pure (.char c :: ps, rest)
  | some '\\' :: _ => none
  | some c :: s =>
    if c.toNat < 0x20 then none
    else do
      let (ps, rest) ← pieces s
      pure (.char c :: ps, rest)
  | none :: s => do
    let (ps, rest) ← pieces s
    pure (.stray :: ps, rest)

/-- The first unit of a pair that stands for one character. -/
def isHigh (n : Nat) : Bool := 0xD800 ≤ n && n < 0xDC00

/-- The second unit of a pair that stands for one character. -/
def isLow (n : Nat) : Bool := 0xDC00 ≤ n && n < 0xE000

/-- The characters of pieces; `none` if an octet is stray or a unit lacks its partner. -/
def assemble : List Piece → Option (List Char)
  | [] => some []
  | .char c :: ps => (assemble ps).map (c :: ·)
  | .stray :: _ => none
  | .unit n :: .unit m :: ps =>
    if isHigh n then
      if isLow m then
        (assemble ps).map (Char.ofNat (0x10000 + (n - 0xD800) * 0x400 + (m - 0xDC00)) :: ·)
      else none
    else if isLow n then none
    else (assemble (.unit m :: ps)).map (Char.ofNat n :: ·)
  | .unit n :: ps =>
    if isHigh n || isLow n then none else (assemble ps).map (Char.ofNat n :: ·)

/-- The text up to the closing quote, and what follows it. -/
def quoted (s : Chars) : Option (Option String × Chars) := do
  let (ps, rest) ← pieces s
  pure ((assemble ps).map String.ofList, rest)

/-! ## Values -/

/-- The text after a word, if it begins with that word. -/
def word? (w : List Char) (s : Chars) : Option Chars :=
  if (w.map some).isPrefixOf s then some (s.drop w.length) else none

mutual

/-- The value that a text begins with, after white space, and the rest. -/
def value : Nat → Chars → Option (Source × Chars)
  | 0, _ => none
  | fuel + 1, s =>
    match skipSpace s with
    | some 'n' :: rest => (word? ['u', 'l', 'l'] rest).map ((.null, ·))
    | some 't' :: rest => (word? ['r', 'u', 'e'] rest).map ((.bool true, ·))
    | some 'f' :: rest => (word? ['a', 'l', 's', 'e'] rest).map ((.bool false, ·))
    | some '"' :: rest => (quoted rest).map fun (s, rest) => (.text s, rest)
    | some '-' :: rest => unsigned true rest
    | some '[' :: rest =>
      match skipSpace rest with
      | some ']' :: rest => some (.list [], rest)
      | rest => (items fuel rest).map fun (vs, rest) => (.list vs, rest)
    | some '{' :: rest =>
      match skipSpace rest with
      | some '}' :: rest => some (.object [], rest)
      | rest => (members fuel rest).map fun (ms, rest) => (.object ms, rest)
    | rest => unsigned false rest

/-- The items of a list that is not empty, up to its bracket. -/
def items : Nat → Chars → Option (List Source × Chars)
  | 0, _ => none
  | fuel + 1, s => do
    let (v, s) ← value fuel s
    match skipSpace s with
    | some ']' :: rest => pure ([v], rest)
    | some ',' :: rest =>
      let (vs, rest) ← items fuel rest
      pure (v :: vs, rest)
    | _ => none

/-- The members of an object that is not empty, up to its brace. -/
def members : Nat → Chars → Option (List (Option String × Source) × Chars)
  | 0, _ => none
  | fuel + 1, s =>
    match skipSpace s with
    | some '"' :: s => do
      let (name, s) ← quoted s
      match skipSpace s with
      | some ':' :: s =>
        let (v, s) ← value fuel s
        match skipSpace s with
        | some '}' :: rest => pure ([(name, v)], rest)
        | some ',' :: rest =>
          let (ms, rest) ← members fuel rest
          pure ((name, v) :: ms, rest)
        | _ => none
      | _ => none
    | _ => none

end

/-- The value that takes up a whole text. -/
def ofChars? (s : Chars) : Option Source := do
  let (v, rest) ← value (s.length + 1) s
  if skipSpace rest = [] then some v else none

/-- The value that takes up a whole text. -/
def ofText? (s : String) : Option Source := ofChars? (s.toList.map some)

/-- The value that takes up a whole list of octets. -/
def ofOctets? (octets : List UInt8) : Option Source := ofChars? (Utf8.decode octets)

end Herald.Source
