/-!
# UTF-8

Octets as characters, with every octet that is part of no encoded character kept in its place as
a stray one. Text that may hold stray octets is a list of `Option Char`, `none` for a stray octet.

* `decode`: every character that its shortest form encodes, surrogates excepted.
* `text`: a text for any octets.
* `encode`: the octets of a text.
-/

namespace Herald.Utf8

/-- An octet that continues a character. -/
def isTail (b : UInt8) : Bool := 0x80 ≤ b && b ≤ 0xBF

/-- The six low bits of a continuing octet. -/
def tailBits (b : UInt8) : Nat := b.toNat - 0x80

/-- The character that a non-empty list of octets begins with and the number of octets it takes
after its first one. -/
def scalar? : List UInt8 → Option (Char × Nat)
  | [] => none
  | a :: rest =>
    if a < 0x80 then some (Char.ofNat a.toNat, 0)
    else if a < 0xC2 then none
    else if a < 0xE0 then
      match rest with
      | b :: _ =>
        if isTail b then some (Char.ofNat ((a.toNat - 0xC0) * 64 + tailBits b), 1) else none
      | _ => none
    else if a < 0xF0 then
      match rest with
      | b :: c :: _ =>
        if isTail b && isTail c && (a != 0xE0 || 0xA0 ≤ b) && (a != 0xED || b ≤ 0x9F) then
          some (Char.ofNat (((a.toNat - 0xE0) * 64 + tailBits b) * 64 + tailBits c), 2)
        else none
      | _ => none
    else if a < 0xF5 then
      match rest with
      | b :: c :: d :: _ =>
        if isTail b && isTail c && isTail d && (a != 0xF0 || 0x90 ≤ b) && (a != 0xF4 || b ≤ 0x8F) then
          some (Char.ofNat ((((a.toNat - 0xF0) * 64 + tailBits b) * 64 + tailBits c) * 64 + tailBits d), 3)
        else none
      | _ => none
    else none

/-- The characters of a list of octets, the first `skip` of which belong to a character before. -/
def decodeFrom : Nat → List UInt8 → List (Option Char)
  | _, [] => []
  | skip + 1, _ :: rest => decodeFrom skip rest
  | 0, a :: rest =>
    match scalar? (a :: rest) with
    | some (c, more) => some c :: decodeFrom more rest
    | none => none :: decodeFrom 0 rest

/-- The characters of a list of octets, `none` for each octet that is part of no character. -/
def decode (octets : List UInt8) : List (Option Char) := decodeFrom 0 octets

/-- Characters as text, with a replacement for what is stray. -/
def mend (cs : List (Option Char)) : String := String.ofList (cs.map fun c => c.getD '\ufffd')

/-- The text of a list of octets, with a replacement for what is stray. -/
def text (octets : List UInt8) : String := mend (decode octets)

/-- The octets of a character. -/
def encodeChar (c : Char) : List UInt8 :=
  let n := c.toNat
  let tail (unit : Nat) : UInt8 := UInt8.ofNat (0x80 + n / unit % 64)
  if n < 0x80 then [UInt8.ofNat n]
  else if n < 0x800 then [UInt8.ofNat (0xC0 + n / 64), tail 1]
  else if n < 0x10000 then [UInt8.ofNat (0xE0 + n / 0x1000), tail 0x40, tail 1]
  else [UInt8.ofNat (0xF0 + n / 0x40000), tail 0x1000, tail 0x40, tail 1]

/-- The octets of a text. -/
def encode (s : String) : List UInt8 := s.toList.flatMap encodeChar

end Herald.Utf8
