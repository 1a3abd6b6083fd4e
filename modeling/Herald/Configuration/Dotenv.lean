import Herald.Configuration
import Herald.Text.Alphanumeric
import Herald.Text.Blank

/-!
# The file of settings

A text file may add to the environment. Each line assigns a value to a name; `#` begins a comment,
`export` may stand in front of a name, and a value may be quoted, in which case it may go on over
several lines. A `$` names a variable whose value is put in its place. The environment wins over
the file, an earlier line over a later one, and reading stops at the first line that is malformed. It
breaks down at the first value that cannot be set.

* `Environment.load`: the environment with the assignments of a file.
* `Configuration.load`, `Configuration.find`: the configuration of an environment and a file, if there is one.

Here is `load` of the configuration (`Configuration.find`).
-/

namespace Herald

/-- Names and values, in the order in which the names were first set. -/
abbrev Environment := List (String × String)

namespace Environment

/-- The character that ends a value in the environment of a process, so that no value has it. -/
def terminator : Char := '\x00'

/-- A value that cannot be set, since it has the terminator, and the name that it is for. -/
structure Unsettable where
  name : String
  value : String
deriving DecidableEq, Repr

/-- Sets a variable, in its place if it has one. -/
def assign : Environment → String → String → Environment
  | [], name, value => [(name, value)]
  | (n, v) :: rest, name, value =>
    if n = name then (n, value) :: rest else (n, v) :: assign rest name value

/-- The environment in which variables were set one after the other. -/
def ofAssignments (pairs : List (String × String)) : Environment :=
  pairs.foldl (fun e p => e.assign p.1 p.2) []

/-- Sets a variable unless it is set. -/
def assignIfUnset (e : Environment) (name value : String) : Except Unsettable Environment :=
  if (e.lookup name).isSome then .ok e
  else if terminator ∈ value.toList then .error ⟨name, value⟩
  else .ok (e ++ [(name, value)])

end Environment

namespace Dotenv

/-! ## Lines -/

/-- The lines of a text, each with the line feed that ends it. -/
def physicalLines (s : List Char) : List (List Char) := go [] s
where
  /-- The lines of a text whose first line has begun with `line`, last character first. -/
  go (line : List Char) : List Char → List (List Char)
    | [] => if line.isEmpty then [] else [line.reverse]
    | '\n' :: rest => ('\n' :: line).reverse :: go [] rest
    | c :: rest => go (c :: line) rest

/-- Where a scan for the end of a line stands. -/
inductive LineState where
  /-- The line may end here. -/
  | complete
  /-- After white space, where a comment may begin. -/
  | space
  | escape
  | strong
  | strongEscape
  | weak
  | weakEscape
  | comment
deriving DecidableEq

namespace LineState

/-- The state after one more character. -/
def next : LineState → Char → LineState
  | .space, c => if c = '#' then .comment else outside c
  | .complete, c => if Text.isBlank c && c != '\n' && c != '\r' then .space else outside c
  | .escape, _ => .complete
  | .weak, c => if c = '\\' then .weakEscape else if c = '"' then .complete else .weak
  | .weakEscape, _ => .weak
  | .strong, c => if c = '\\' then .strongEscape else if c = '\'' then .complete else .strong
  | .strongEscape, _ => .strong
  | .comment, _ => .comment
where
  /-- Outside of quotes, and not blank. -/
  outside (c : Char) : LineState :=
    if c = '\\' then .escape else if c = '"' then .weak else if c = '\'' then .strong
    else .complete

/-- The part of a line before a comment, and the state at its end. -/
def scan : LineState → List Char → List Char × LineState
  | s, [] => ([], s)
  | s, c :: rest =>
    if s.next c = .comment then ([], .comment)
    else
      let r := scan (s.next c) rest
      (c :: r.1, r.2)

end LineState

/-- A line without the line feed at its end and a carriage return before that. -/
def chomp (line : List Char) : List Char :=
  match line.reverse with
  | '\n' :: '\r' :: rest => rest.reverse
  | '\n' :: rest => rest.reverse
  | _ => line

/-- The lines that values in quotes may make up of several; `none` is a line that never ends. -/
def logicalLines : LineState → List Char → List (List Char) → List (Option (List Char))
  | .complete, _, [] => []
  | _, _, [] => [none]
  | state, before, line :: rest =>
    let whole := before ++ line
    if (whole.dropWhile Text.isBlank).head? = some '#' then logicalLines .complete [] rest
    else
      match state.scan line with
      | (_, .complete) => some (chomp whole) :: logicalLines .complete [] rest
      | (kept, .comment) => some (before ++ kept) :: logicalLines .complete [] rest
      | (_, state) => logicalLines state whole rest

/-! ## Values -/

/-- Where the reading of a value stands. `weak` is inside of double quotes. -/
inductive Mode where
  | plain (weak : Bool)
  | escaped (weak : Bool)
  | strong
  /-- In the name of a variable, last character first. -/
  | naming (weak : Bool) (name : List Char)
  /-- In the name of a variable in braces, last character first. -/
  | braced (weak : Bool) (name : List Char)
  /-- After the white space that ends a value. -/
  | ended

/-- The characters that stand for a variable; none if it is not set. -/
def substitute (e : Environment) (name : List Char) : List Char :=
  ((e.lookup (String.ofList name.reverse)).getD "").toList

/-- The characters that may stand behind a backslash. -/
def escape? : Char → Option Char
  | '\\' => some '\\'
  | '\'' => some '\''
  | '"' => some '"'
  | '$' => some '$'
  | ' ' => some ' '
  | 'n' => some '\n'
  | _ => none

/-- The value that the rest of a line says; `none` if the line is malformed. -/
def value (e : Environment) : Mode → List Char → Option (List Char)
  | .plain weak, [] => if weak then none else some []
  | .escaped weak, [] => if weak then none else some []
  | .strong, [] => none
  | .naming weak name, [] => if weak then none else some (substitute e name)
  | .braced _ _, [] => none
  | .ended, [] => some []
  | .ended, c :: rest =>
    if c = ' ' ∨ c = '\t' then value e .ended rest else if c = '#' then some [] else none
  | .escaped weak, c :: rest =>
    (escape? c).bind fun d => (value e (.plain weak) rest).map (d :: ·)
  | .strong, c :: rest =>
    if c = '\'' then value e (.plain false) rest else (value e .strong rest).map (c :: ·)
  | .naming weak name, c :: rest =>
    if Text.isAlphanumeric c then value e (.naming weak (c :: name)) rest
    else if c = '\x7b' ∧ name = [] then value e (.braced weak []) rest
    else if c = '$' then (value e (.naming weak []) rest).map (substitute e name ++ ·)
    else (value e (.plain weak) rest).map (substitute e name ++ c :: ·)
  | .braced weak name, c :: rest =>
    if c = '\x7d' then (value e (.plain weak) rest).map (substitute e name ++ ·)
    else value e (.braced weak (c :: name)) rest
  | .plain weak, c :: rest =>
    if c = '$' then value e (.naming weak []) rest
    else if c = '\\' then value e (.escaped weak) rest
    else if c = '"' then value e (.plain (!weak)) rest
    else if weak then (value e (.plain weak) rest).map (c :: ·)
    else if c = '\'' then value e .strong rest
    else if c = ' ' ∨ c = '\t' then value e .ended rest
    else (value e (.plain weak) rest).map (c :: ·)

/-! ## Assignments -/

/-- The name that a line begins with, and the rest. -/
def name? : List Char → Option (List Char × List Char)
  | [] => none
  | c :: rest =>
    if c.isAlpha || c == '_' then
      some ((c :: rest).span fun c => c.isAlphanum || c == '_' || c == '.')
    else none

/-- What follows the equals sign after white space. -/
def afterEquals? (s : List Char) : Option (List Char) :=
  match s.dropWhile Text.isBlank with
  | '=' :: rest => some rest
  | _ => none

/-- The name that a line assigns to, and what it assigns. -/
def assigned? (line : List Char) : Option (List Char × List Char) := do
  let (name, rest) ← name? line
  match afterEquals? rest with
  | some value => pure (name, value)
  | none =>
    if name = "export".toList then
      let (name, rest) ← name? (rest.dropWhile Text.isBlank)
      pure (name, ← afterEquals? rest)
    else none

/-- A comment or nothing at all. -/
def isVoid (s : List Char) : Bool := s.isEmpty || s.head? == some '#'

/-- The environment after one line; `none` if the line is malformed. -/
def loadLine (e : Environment) (line : List Char) : Option (Except Environment.Unsettable Environment) :=
  let line := (Text.dropTail Text.isBlank line).dropWhile Text.isBlank
  if isVoid line then some (.ok e)
  else do
    let (name, rest) ← assigned? line
    let rest := rest.dropWhile Text.isBlank
    let v ← if isVoid rest then pure [] else value e (.plain false) rest
    pure (e.assignIfUnset (String.ofList name) (String.ofList v))

/-- The environment after the lines up to the first malformed one. -/
def loadLines : Environment → List (Option (List Char)) → Except Environment.Unsettable Environment
  | e, some line :: rest =>
    match loadLine e line with
    | some (.ok e) => loadLines e rest
    | some (.error u) => .error u
    | none => .ok e
  | e, _ => .ok e

/-- The lines of a file, without the mark that may stand in front of it. -/
def lines (file : String) : List (Option (List Char)) :=
  let s := match file.toList with
    | '\ufeff' :: rest => rest
    | s => s
  logicalLines .complete [] (physicalLines s)

end Dotenv

/-- The environment with the assignments of a file. -/
def Environment.load (e : Environment) (file : String) : Except Unsettable Environment :=
  Dotenv.loadLines e (Dotenv.lines file)

/-- What is found in an environment and a file: a configuration, or what is wrong with it. -/
def Configuration.load (e : Environment) (file : String) :
    Except Environment.Unsettable (Except ConfigurationError Configuration) :=
  (e.load file).map (ofPairs .environment)

/-- What is found in an environment and the file beside it. There may be none. -/
def Configuration.find (e : Environment) :
    Option String → Except Environment.Unsettable (Except ConfigurationError Configuration)
  | some file => load e file
  | none => .ok (ofPairs .environment e)

end Herald
