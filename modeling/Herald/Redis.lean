import Herald.Failure

/-!
# The cache server

The cache is kept by a server that takes commands, each a list of words, and gives one reply to
each. Here is what is asked of it and what is made of its replies; a `Store` is what such a server
makes of the commands for lists.

* `pushCommands`: puts a text in front of a list and cuts the list, as one transaction.
* `Store.trim`: both ends of a range belong to it, and negative ones count from the end.

Here are `connect`, `ping`, `exists`, `set_with_ttl`, `push_and_trim` and `range` of the client of
the server, each as commands and what is made of the reply.
-/

namespace Herald.Redis

/-- What is asked of the server. -/
inductive Command where
  | ping
  | keyExists (key : String)
  /-- Sets a key that lives for so many seconds. -/
  | setExpiring (key : String) (seconds : Nat)
  | multi
  | exec
  | leftPush (key value : String)
  | trim (key : String) (first last : Int64)
  | range (key : String) (first last : Int64)
deriving DecidableEq, Repr

namespace Command

/-- The words of a command. -/
def words : Command → List String
  | ping => ["PING"]
  | keyExists key => ["EXISTS", key]
  | setExpiring key seconds => ["SETEX", key, Decimal.ofNat seconds, "1"]
  | multi => ["MULTI"]
  | exec => ["EXEC"]
  | leftPush key value => ["LPUSH", key, value]
  | trim key first last => ["LTRIM", key, Decimal.ofId first, Decimal.ofId last]
  | range key first last => ["LRANGE", key, Decimal.ofId first, Decimal.ofId last]

end Command

/-- What the server says. -/
inductive Reply where
  | integer (n : Int)
  | text (s : String)
  | status (s : String)
  | error (s : String)
  | list (items : List Reply)
deriving Repr

/-! ## Commands -/

/-- How long a key is asked to live that is wanted for so many milliseconds: whole seconds, and at
least one. -/
def lifetime (ms : Nat) : Nat := max (ms / 1000) 1

/-- The position of the last entry of a list of at most `cap` entries, and of at least one, as a
64-bit number. -/
def lastOf (cap : Nat) : Int64 := Int64.ofNat (max cap 1) - 1

/-- The commands that find out whether a key is set. -/
def existsCommands (key : String) : List Command := [.keyExists key]

/-- The commands that set a key. -/
def setCommands (key : String) (ms : Nat) : List Command := [.setExpiring key (lifetime ms)]

/-- The commands that put a text in front of a list, of which `cap` texts are kept. -/
def pushCommands (key value : String) (cap : Nat) : List Command :=
  [.multi, .leftPush key value, .trim key 0 (lastOf cap), .exec]

/-- The commands that yield a list. -/
def rangeCommands (key : String) : List Command := [.range key 0 (-1)]

/-! ## Replies -/

/-- What is said of a reply that is not of the expected kind. -/
def unexpected : String := "unexpected reply"

/-- The reply, unless it is an error. -/
def Reply.accepted : Reply → Except String Reply
  | .error s => .error s
  | r => .ok r

/-- A text. -/
def Reply.asText : Reply → Except String String
  | .text s | .status s => .ok s
  | .integer n => .ok (Decimal.ofInt n)
  | .error s => .error s
  | .list _ => .error unexpected

/-- A truth value. -/
def Reply.asBool : Reply → Except String Bool
  | .integer n => .ok (n ≠ 0)
  | .status "OK" => .ok true
  | .text s | .status s =>
    if s = "1" then .ok true else if s = "0" then .ok false else .error unexpected
  | .error s => .error s
  | .list _ => .error unexpected

/-- A list of texts. -/
def Reply.asTexts : Reply → Except String (List String)
  | .list items => items.mapM Reply.asText
  | .text s => .ok [s]
  | .error s => .error s
  | _ => .error unexpected

/-- A transaction was carried out, every command of it. -/
def Reply.asDone : Reply → Except String Unit
  | .list items => (items.mapM Reply.accepted).map fun _ => ()
  | .error s => .error s
  | _ => .error unexpected

/-- A failure of which it is said what was attempted. -/
def blame {α : Type} (attempt : String) (r : Except String α) : Except Failure α :=
  r.mapError fun s => .reported s!"{attempt}: {s}"

/-- What a reply says about the connection. -/
def pingReply (r : Reply) : Except Failure Unit :=
  blame "Redis ping failed" (r.asText.map fun _ => ())

/-- Whether a key is set. -/
def existsReply (r : Reply) : Except Failure Bool := blame "Failed to check key" r.asBool

/-- A key was set. -/
def setReply (r : Reply) : Except Failure Unit :=
  blame "Failed to set key" (r.accepted.map fun _ => ())

/-- A text was put in front of a list. -/
def pushReply (r : Reply) : Except Failure Unit := blame "Failed to append to list" r.asDone

/-- The texts of a list. -/
def rangeReply (r : Reply) : Except Failure (List String) :=
  blame "Failed to read list" r.asTexts

/-! ## Connections -/

/-- Why there is no connection. -/
inductive ConnectionError where
  /-- The address is none of a server. -/
  | address
  | unreachable
deriving DecidableEq, Repr

/-- The text of an error. -/
def ConnectionError.message : ConnectionError → String
  | .address => "Failed to create redis client"
  | .unreachable => "Failed to connect to redis"

/-- An optional number after a character that announces it. -/
def isNumbered (limit : Option Nat) (digits : List Char) : Bool :=
  digits.isEmpty || (digits.all Char.isDigit &&
    limit.all fun n => Decimal.value (digits.map fun c => c.toNat - 48) ≤ n)

/-- The address is one of a server: a scheme, a host, perhaps a port, and perhaps the number of a
database. -/
def isAddress (s : String) : Bool :=
  let cs := s.toList
  let scheme := String.ofList ((cs.takeWhile (· != ':')).map Char.toLower)
  match cs.dropWhile (· != ':') with
  | ':' :: '/' :: '/' :: rest =>
    let authority := rest.takeWhile fun c => !(['/', '?', '#'].contains c)
    let host := (authority.reverse.takeWhile (· != '@')).reverse
    let name := host.takeWhile (· != ':')
    let path := ((rest.dropWhile fun c => !(['/', '?', '#'].contains c)).takeWhile
      fun c => !(['?', '#'].contains c)).drop 1
    if ["redis", "valkey"].contains scheme then
      !name.isEmpty && isNumbered (some 65535) ((host.dropWhile (· != ':')).drop 1) &&
        isNumbered none path
    else ["unix", "redis+unix", "valkey+unix"].contains scheme
  | _ => false

/-- Connects to the server at an address, if one can be reached there. -/
def connect (reaches : String → Bool) (address : String) : Except ConnectionError Unit :=
  if !isAddress address then .error .address
  else if reaches address then .ok () else .error .unreachable

/-! ## What a server does -/

/-- The lists that a server holds; a list is never empty. -/
structure Store where
  lists : List (String × List String) := []
deriving DecidableEq, Repr

namespace Store

/-- The list of a key; the empty list if there is none. -/
def get (s : Store) (key : String) : List String := (s.lists.lookup key).getD []

/-- Puts a list in place of the one of a key; the empty list removes the key. -/
def put (s : Store) (key : String) (entries : List String) : Store :=
  let rest := s.lists.filter (·.1 != key)
  ⟨if entries.isEmpty then rest else (key, entries) :: rest⟩

/-- A position in a list of a length: negative ones count from the end, and nothing comes before
the beginning. -/
def position (length : Nat) (i : Int) : Int := if i < 0 then max (i + length) 0 else i

/-- The entries from `first` to `last`, both included. -/
def trim (entries : List String) (first last : Int) : List String :=
  let n := entries.length
  let first := position n first
  let last := if last < 0 then last + n else last
  if last < first then [] else (entries.take (last.toNat + 1)).drop first.toNat

/-- What the commands for lists make of the lists. -/
def run (s : Store) : Command → Store
  | .leftPush key value => s.put key (value :: s.get key)
  | .trim key first last => s.put key (trim (s.get key) first.toInt last.toInt)
  | _ => s

/-- What commands make of the lists, one after the other. -/
def runAll (s : Store) (commands : List Command) : Store := commands.foldl run s

end Store

end Herald.Redis
