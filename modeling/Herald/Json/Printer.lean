import Herald.Json.Value

/-!
# Compact text of values

`Json.compact v` is the text of `v` without any white space. In texts and names only the quote,
the backslash and the control characters below U+0020 are escaped; every other character stands
for itself.
-/

namespace Herald.Json

/-- The digit of a number below sixteen, in lower case. -/
def hexChar (d : Nat) : Char := if d < 10 then Char.ofNat (48 + d) else Char.ofNat (87 + d)

/-- The character as it is written inside quotes. -/
def escape (c : Char) : List Char :=
  if c = '"' then ['\\', '"']
  else if c = '\\' then ['\\', '\\']
  else if c = '\x08' then ['\\', 'b']
  else if c = '\x0c' then ['\\', 'f']
  else if c = '\n' then ['\\', 'n']
  else if c = '\r' then ['\\', 'r']
  else if c = '\t' then ['\\', 't']
  else if c.toNat < 0x20 then ['\\', 'u', '0', '0', hexChar (c.toNat / 16), hexChar (c.toNat % 16)]
  else [c]

/-- A text in quotes. -/
def quoted (s : String) : List Char := '"' :: (s.toList.flatMap escape ++ ['"'])

mutual

/-- The characters of a value. -/
def chars : Json → List Char
  | .null => ['n', 'u', 'l', 'l']
  | .bool true => ['t', 'r', 'u', 'e']
  | .bool false => ['f', 'a', 'l', 's', 'e']
  | .integer n => Decimal.intChars n
  | .real x => x.chars
  | .text s => quoted s
  | .list [] => ['[', ']']
  | .list (v :: rest) => '[' :: (chars v ++ itemChars rest)
  | .object [] => ['{', '}']
  | .object ((name, v) :: rest) => '{' :: (quoted name ++ ':' :: (chars v ++ memberChars rest))

/-- The characters of the further items of a list, up to its bracket. -/
def itemChars : List Json → List Char
  | [] => [']']
  | v :: rest => ',' :: (chars v ++ itemChars rest)

/-- The characters of the further members of an object, up to its brace. -/
def memberChars : List (String × Json) → List Char
  | [] => ['}']
  | (name, v) :: rest => ',' :: (quoted name ++ ':' :: (chars v ++ memberChars rest))

end

/-- The text of a value, without white space. -/
def compact (v : Json) : String := String.ofList v.chars

end Herald.Json
