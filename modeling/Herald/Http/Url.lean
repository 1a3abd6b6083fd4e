import Herald.Text.Decimal
import Herald.Text.Utf8

/-!
# Web addresses

An absolute address with the scheme `http` or `https`, read by the rules of the URL standard: white
space and control characters at either end count for nothing, nor do tabs and line ends inside; a
backslash separates segments like a slash; `.` and `..` segments, also when their dots are escaped,
are resolved; a character that may not stand where it stands is escaped; the fragment is not part of
what is requested. A host is a name or a number in brackets, and is kept as it is, in lower case. Here the
standard knows more: names beyond ASCII and escapes in names, which are refused, and names that are
numbers, of which it has but one spelling.

* `Url.host?`: the host of an authority, and the digits of its port.
* `Url.parse?`: the address that a text is.
* `Url.target`: what is asked of the server.
-/

namespace Herald

/-- An address. -/
structure Url where
  isSecure : Bool
  /-- The user information, escaped; empty if there is none. -/
  user : String
  host : String
  port : Nat
  /-- The segments of the path, escaped. -/
  path : List (List Char)
  /-- The query, escaped. -/
  query : Option (List Char)
deriving DecidableEq, Repr

namespace Url

/-! ## Escapes -/

/-- The digit of a value below 16. -/
def hexDigit (n : Nat) : Char := Char.ofNat (if n < 10 then 48 + n else 55 + n)

/-- An octet, escaped. -/
def escapeOctet (b : UInt8) : List Char := ['%', hexDigit (b.toNat / 16), hexDigit (b.toNat % 16)]

/-- A character, escaped octet by octet. -/
def escapeChar (c : Char) : List Char := (Utf8.encodeChar c).flatMap escapeOctet

/-- A text in which the characters that `unfit` names are escaped. -/
def escape (unfit : Char → Bool) (cs : List Char) : List Char :=
  cs.flatMap fun c => if unfit c then escapeChar c else [c]

/-- Control characters, and everything beyond ASCII. -/
def isControl (c : Char) : Bool := c.toNat < 0x20 || 0x7e < c.toNat

/-- Characters that are escaped in a query. -/
def unfitQuery (c : Char) : Bool := isControl c || [' ', '"', '#', '<', '>', '\''].contains c

/-- Characters that are escaped in a path. -/
def unfitPath (c : Char) : Bool :=
  isControl c || [' ', '"', '#', '<', '>', '?', '^', '\x60', '\x7b', '\x7d'].contains c

/-- Characters that are escaped in user information. -/
def unfitUser (c : Char) : Bool :=
  unfitPath c || ['/', ':', ';', '=', '@', '[', '\\', ']', '|'].contains c

/-- The value of a hexadecimal digit. -/
def hexValue? (c : Char) : Option Nat :=
  if '0' ≤ c ∧ c ≤ '9' then some (c.toNat - 48)
  else if 'a' ≤ c ∧ c ≤ 'f' then some (c.toNat - 87)
  else if 'A' ≤ c ∧ c ≤ 'F' then some (c.toNat - 55)
  else none

/-- The octets that a text with escapes stands for. A percent sign that starts no escape stands for
itself. -/
def unescape : List Char → List UInt8
  | [] => []
  | '%' :: a :: b :: rest =>
    match hexValue? a, hexValue? b with
    | some x, some y => UInt8.ofNat (x * 16 + y) :: unescape rest
    | _, _ => 37 :: unescape (a :: b :: rest)
  | c :: rest => Utf8.encodeChar c ++ unescape rest

/-! ## Paths -/

/-- A segment that means the place where it stands. -/
def isSingleDot (segment : List Char) : Bool :=
  ["." , "%2e"].contains (String.ofList (segment.map Char.toLower))

/-- A segment that means the place above. -/
def isDoubleDot (segment : List Char) : Bool :=
  ["..", ".%2e", "%2e.", "%2e%2e"].contains (String.ofList (segment.map Char.toLower))

/-- A character that separates segments. -/
def isSlash (c : Char) : Bool := c = '/' || c = '\\'

/-- The pieces between the characters that `separates` names; `piece` is the beginning of the first
one, last character first. -/
def piecesFrom (separates : Char → Bool) : List Char → List Char → List (List Char)
  | piece, [] => [piece.reverse]
  | piece, c :: rest =>
    if separates c then piece.reverse :: piecesFrom separates [] rest
    else piecesFrom separates (c :: piece) rest

/-- The segments of a path. -/
def segments (cs : List Char) : List (List Char) := piecesFrom isSlash [] cs

/-- The segments that remain when dots are resolved, after those in `above`, last first. -/
def resolve (above : List (List Char)) : List (List Char) → List (List Char)
  | [] => above.reverse
  | [s] =>
    if isDoubleDot s then resolve ([] :: above.tail) []
    else if isSingleDot s then resolve ([] :: above) []
    else resolve (escape unfitPath s :: above) []
  | s :: rest =>
    if isDoubleDot s then resolve above.tail rest
    else if isSingleDot s then resolve above rest
    else resolve (escape unfitPath s :: above) rest

/-! ## Reading -/

/-- A text without control characters and blanks at either end, and without tabs and line ends. -/
def tidy (cs : List Char) : List Char :=
  let blank (c : Char) : Bool := c.toNat ≤ 0x20
  let cs := ((cs.dropWhile blank).reverse.dropWhile blank).reverse
  cs.filter fun c => !(['\t', '\n', '\r'].contains c)

/-- What comes before the last at sign, if there is one, and what comes after it. -/
def splitUser (authority : List Char) : Option (List Char) × List Char :=
  let host := (authority.reverse.takeWhile (· != '@')).reverse
  if host.length = authority.length then (none, authority)
  else (some (authority.take (authority.length - host.length - 1)), host)

/-- Characters that a name may not have. -/
def isForbidden (c : Char) : Bool :=
  isControl c || [' ', '#', '%', '/', ':', '<', '>', '?', '@', '[', '\\', ']', '^', '|'].contains c

/-- Up to four hexadecimal digits. -/
def isGroup (cs : List Char) : Bool :=
  !cs.isEmpty && cs.length ≤ 4 && cs.all fun c => (hexValue? c).isSome

/-- A number of one octet, without a zero in front. -/
def isOctet (cs : List Char) : Bool :=
  !cs.isEmpty && cs.all Char.isDigit && (cs.length = 1 || cs.head? != some '0') &&
    Decimal.value (cs.map fun c => c.toNat - 48) < 256

/-- Four octets with dots between them. -/
def isDotted (cs : List Char) : Bool :=
  let octets := piecesFrom (· = '.') [] cs
  octets.length = 4 && octets.all isOctet

/-- How many groups a text has. Four octets at its end are two groups. -/
def groups? (cs : List Char) : Option Nat :=
  let pieces := piecesFrom (· = ':') [] cs
  if cs.isEmpty then some 0
  else if pieces.all isGroup then some pieces.length
  else if pieces.dropLast.all isGroup && pieces.getLast?.any isDotted then some (pieces.length + 1)
  else none

/-- What comes before the first two colons in a row, and what comes after them, if there are any. -/
def splitGap : List Char → List Char × Option (List Char)
  | ':' :: ':' :: rest => ([], some rest)
  | c :: rest =>
    let split := splitGap rest
    (c :: split.1, split.2)
  | [] => ([], none)

/-- Eight groups with colons between them. Two colons in a row stand for groups that are zero, at least one. -/
def isGrouped (cs : List Char) : Bool :=
  match splitGap cs with
  | (all, none) => groups? all == some 8
  | (before, some after) =>
    !before.contains '.' && match groups? before, groups? after with
      | some m, some n => m + n ≤ 7
      | _, _ => false

/-- The host of an authority without user information, and the digits of its port. A host in brackets may have
colons. -/
def host? (cs : List Char) : Option (List Char × List Char) :=
  match cs with
  | '[' :: rest =>
    let number := rest.takeWhile (· != ']')
    let after := (rest.dropWhile (· != ']')).drop 1
    if number.length < rest.length && isGrouped number && (after.isEmpty || after.head? == some ':') then
      some ('[' :: number ++ [']'], after.drop 1)
    else none
  | _ =>
    let name := cs.takeWhile (· != ':')
    if name.isEmpty || name.any isForbidden then none
    else some (name, (cs.dropWhile (· != ':')).drop 1)

/-- The port that digits say; `usual` if there are none. -/
def port? (usual : Nat) (digits : List Char) : Option Nat :=
  if digits.isEmpty then some usual
  else if digits.all Char.isDigit then
    let n := Decimal.value (digits.map fun c => c.toNat - 48)
    if n < 65536 then some n else none
  else none

/-- The scheme of a text, and what follows its colon. -/
def scheme? (cs : List Char) : Option (Bool × List Char) :=
  let name := cs.takeWhile (· != ':')
  match cs.dropWhile (· != ':') with
  | ':' :: rest =>
    match String.ofList (name.map Char.toLower) with
    | "http" => some (false, rest)
    | "https" => some (true, rest)
    | _ => none
  | _ => none

/-- User information, escaped; the parts of it keep their colon. -/
def escapeUser (cs : List Char) : String :=
  let name := escape unfitUser (cs.takeWhile (· != ':'))
  match cs.dropWhile (· != ':') with
  | _ :: secret => String.ofList (name ++ ':' :: escape unfitUser secret)
  | [] => String.ofList name

/-- User, host and port as an authority says them. -/
def place? (isSecure : Bool) (authority : List Char) : Option (String × String × Nat) := do
  let (user, cs) := splitUser authority
  let (host, digits) ← host? cs
  let port ← port? (if isSecure then 443 else 80) digits
  pure (escapeUser (user.getD []), String.ofList (host.map Char.toLower), port)

/-- The address that a text is. -/
def parse? (s : String) : Option Url := do
  let (isSecure, cs) ← scheme? (tidy s.toList)
  let cs := cs.dropWhile isSlash
  let ends (c : Char) : Bool := isSlash c || c = '?' || c = '#'
  let (user, host, port) ← place? isSecure (cs.takeWhile fun c => !ends c)
  let cs := (cs.dropWhile fun c => !ends c).takeWhile (· != '#')
  let path := cs.takeWhile (· != '?')
  let query := match cs.dropWhile (· != '?') with
    | _ :: q => some (escape unfitQuery q)
    | [] => none
  let path := match path with
    | c :: rest => if isSlash c then rest else path
    | [] => []
  pure {
    isSecure
    user
    host
    port
    path := resolve [] (segments path)
    query }

/-! ## Writing -/

/-- The path as text. -/
def pathText (u : Url) : List Char := u.path.flatMap ('/' :: ·)

/-- What is asked of the server: the path and the query. -/
def target (u : Url) : String :=
  String.ofList (u.pathText ++ match u.query with
    | some q => '?' :: q
    | none => [])

end Url

end Herald
