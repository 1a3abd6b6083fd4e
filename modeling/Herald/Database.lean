import Herald.Audience

/-!
# The database

Preferences, devices, names and followers are kept in a relational database. A `Query` has
parameters, and its result has named columns of declared types. A column is read strictly: it has
to be there, of the type expected, and not null.

* `Row.recipient`: the preferences in a row.
* `readAll`: a list is made of all rows of a table, or of none.
* `Server.settings` and what follows it: what the rest of the service gets to know from a database.

Here are `settings_for_user`, `settings_for_followers`, `settings_for_active_users`,
`devices_for_user`, `remove_device`, `display_name`, `recommend`, `candidates` and `health_check` of
the client of the database, each as a query and what is made of the answer, and `target_from_row`
(`Row.recipient`).
-/

namespace Herald.Database

/-- The types of columns. -/
inductive ColumnType where
  | int2
  | int4
  | int8
  | bool
  | text
deriving DecidableEq, Repr

/-- What stands in a row. -/
inductive Cell where
  | null
  | number (n : Int)
  | truth (b : Bool)
  | text (s : String)
deriving DecidableEq, Repr

/-- A value for a parameter of a query. -/
inductive Parameter where
  | number (n : Int64)
  | text (s : String)
deriving DecidableEq, Repr

/-- A query with values for its parameters. -/
structure Query where
  sql : String
  parameters : List Parameter := []
deriving DecidableEq, Repr

/-- What a query yields. -/
structure Table where
  columns : List (String × ColumnType)
  rows : List (List Cell)
deriving Repr

/-! ## Queries -/

/-- The preferences in a row, with defaults for users who never saved any. -/
def preferenceColumns : String :=
  "COALESCE(s.room_frequency, 2::SMALLINT) AS room_frequency, COALESCE(s.follows, TRUE) AS follows, COALESCE(s.welcome_rooms, TRUE) AS welcome_rooms"

/-- The preferences of a user. -/
def userSettings (user : UserId) : Query where
  sql := s!"SELECT s.user_id, {preferenceColumns} FROM notification_settings s WHERE s.user_id = $1"
  parameters := [.number user]

/-- The preferences of a user's followers. -/
def followerSettings (user : UserId) : Query where
  sql := s!"SELECT f.follower AS user_id, {preferenceColumns} FROM followers f LEFT JOIN notification_settings s ON s.user_id = f.follower WHERE f.user_id = $1"
  parameters := [.number user]

/-- The preferences of the users who were active last. -/
def activeSettings (limit : Int64) : Query where
  sql := s!"SELECT a.user_id, {preferenceColumns} FROM user_active_times a LEFT JOIN notification_settings s ON s.user_id = a.user_id ORDER BY a.last_active DESC LIMIT $1"
  parameters := [.number limit]

/-- The devices of a user. -/
def devices (user : UserId) : Query where
  sql := "SELECT token FROM devices WHERE user_id = $1"
  parameters := [.number user]

/-- The removal of a device. -/
def removeDevice (token : DeviceToken) : Query where
  sql := "DELETE FROM devices WHERE token = $1"
  parameters := [.text token]

/-- The name of a user. -/
def displayName (user : UserId) : Query where
  sql := "SELECT display_name FROM users WHERE id = $1"
  parameters := [.number user]

/-- Accounts followed by those whom a user follows, the most followed ones first. -/
def recommendations (user : UserId) (limit : Int64) : Query where
  sql := "SELECT f2.user_id AS id FROM followers f1 INNER JOIN followers f2 ON f2.follower = f1.user_id WHERE f1.follower = $1 AND f2.user_id <> $1 AND NOT EXISTS ( SELECT 1 FROM followers f3 WHERE f3.follower = $1 AND f3.user_id = f2.user_id ) GROUP BY f2.user_id ORDER BY COUNT(*) DESC, f2.user_id LIMIT $2"
  parameters := [.number user, .number limit]

/-- The users who were active last. -/
def candidates (limit : Int64) : Query where
  sql := "SELECT user_id FROM user_active_times ORDER BY last_active DESC LIMIT $1"
  parameters := [.number limit]

/-- A query that only asks whether the database answers. -/
def probe : Query where sql := "SELECT 1"

/-! ## Reading rows -/

/-- A row with the columns it has. -/
structure Row where
  columns : List (String × ColumnType)
  cells : List Cell

/-- What is said of a null, or of a cell that is not what its column says. -/
def unreadable (name : String) : String := s!"error deserializing column \x60{name}\x60"

/-- What stands in the column of that name, if it has the type. Case counts for nothing where no
column has the very name. -/
def Row.cell (r : Row) (name : String) (type : ColumnType) : Except String Cell :=
  let cells := r.columns.zip r.cells
  match cells.find? (·.1.1 = name) <|> cells.find? (·.1.1.toLower = name.toLower) with
  | none => .error s!"invalid column \x60{name}\x60"
  | some (column, cell) => if column.2 = type then .ok cell else .error (unreadable name)

/-- A 64-bit number. -/
def Row.id (r : Row) (name : String) : Except String Int64 := do
  match ← r.cell name .int8 with
  | .number n => pure (Int64.ofInt n)
  | _ => throw (unreadable name)

/-- A 16-bit number. -/
def Row.short (r : Row) (name : String) : Except String Int := do
  match ← r.cell name .int2 with
  | .number n => pure n
  | _ => throw (unreadable name)

/-- A truth value. -/
def Row.truth (r : Row) (name : String) : Except String Bool := do
  match ← r.cell name .bool with
  | .truth b => pure b
  | _ => throw (unreadable name)

/-- A text. -/
def Row.text (r : Row) (name : String) : Except String String := do
  match ← r.cell name .text with
  | .text s => pure s
  | _ => throw (unreadable name)

/-- The preferences in a row. -/
def Row.recipient (r : Row) : Except String Recipient := do
  let user ← r.id "user_id"
  let frequency ← r.short "room_frequency"
  let follows ← r.truth "follows"
  let welcomes ← r.truth "welcome_rooms"
  pure ⟨user, .ofCode frequency, follows, welcomes⟩

/-- The rows of a table. -/
def Table.entries (t : Table) : List Row := t.rows.map fun cells => ⟨t.columns, cells⟩

/-! ## Answers -/

/-- What a query comes to: a table, or why there is none. -/
abbrev Answer := Except String Table

/-- A failure of which it is said what it befell. -/
def blame {α : Type} (subject : String) (r : Except String α) : Except Failure α :=
  r.mapError fun s => .reported s!"{subject}: {s}"

/-- What is said when a query for one row yields more. -/
def tooMany : String := "query returned an unexpected number of rows"

/-- The only row, if there is one. -/
def onlyRow (t : Table) : Except String (Option Row) :=
  match t.entries with
  | [] => .ok none
  | [r] => .ok (some r)
  | _ => .error tooMany

/-- All rows, each read in the same way. -/
def readAll {α : Type} (query row : String) (read : Row → Except String α) (a : Answer) :
    Except Failure (List α) := do
  let t ← blame query a
  blame row (t.entries.mapM read)

/-- The preferences of a user. -/
def userSettingsOf (a : Answer) : Except StoreError Recipient :=
  match blame "Settings query failed" (a.bind onlyRow) with
  | .error f => .error (.failed f)
  | .ok none => .error .notFound
  | .ok (some r) => (blame "Malformed settings row" r.recipient).mapError .failed

/-- The preferences of some users. -/
def settingsOf (a : Answer) : Except StoreError (List Recipient) :=
  (readAll "Settings query failed" "Malformed settings row" Row.recipient a).mapError .failed

/-- The devices of a user. -/
def devicesOf (a : Answer) : Except Failure (List DeviceToken) :=
  readAll "Device query failed" "Malformed device row" (·.text "token") a

/-- A device was removed. -/
def removalOf (a : Answer) : Except Failure Unit := blame "Device removal failed" (a.map fun _ => ())

/-- The name of a user. -/
def displayNameOf (a : Answer) : Except Failure (Option String) := do
  match ← blame "User query failed" (a.bind onlyRow) with
  | none => pure none
  | some r => some <$> blame "Malformed user row" (r.text "display_name")

/-- The accounts recommended. -/
def recommendationsOf (a : Answer) : Except Failure (List UserId) :=
  readAll "Recommendation query failed" "Malformed recommendation row" (·.id "id") a

/-- The candidates for recommendations. -/
def candidatesOf (a : Answer) : Except Failure (List UserId) :=
  readAll "Candidate query failed" "Malformed candidate row" (·.id "user_id") a

/-- The database answers. -/
def probeOf (a : Answer) : Except Failure Unit :=
  blame "Database health check failed" (a.map fun _ => ())

/-! ## What the database is asked for -/

/-- What the database says to a query, and after how many milliseconds. -/
abbrev Server := Query → Reply String Table

namespace Server

/-- A query, and what is made of the answer. -/
def ask {ε α : Type} (s : Server) (q : Query) (read : Answer → Except ε α) : Reply ε α :=
  ⟨(s q).delay, read (s q).answer⟩

/-- The preferences of users. -/
def settings (s : Server) : SettingsStore where
  user _ user := s.ask (userSettings user) userSettingsOf
  followers user := s.ask (followerSettings user) settingsOf
  activeUsers limit := s.ask (activeSettings limit) settingsOf

/-- The name of a user. -/
def name (s : Server) (user : UserId) : Reply Failure (Option String) :=
  s.ask (displayName user) displayNameOf

/-- The devices of a user. -/
def tokens (s : Server) (user : UserId) : Reply Failure (List DeviceToken) :=
  s.ask (devices user) devicesOf

/-- The removal of a device. -/
def removal (s : Server) (token : DeviceToken) : Reply Failure Unit := s.ask (removeDevice token) removalOf

/-- The accounts recommended to a user. -/
def recommended (s : Server) (user : UserId) (limit : Int64) : Reply Failure (List UserId) :=
  s.ask (recommendations user limit) recommendationsOf

/-- The candidates for recommendations. -/
def eligible (s : Server) (limit : Int64) : Reply Failure (List UserId) :=
  s.ask (candidates limit) candidatesOf

/-- Whether the database answers. -/
def health (s : Server) : Reply Failure Unit := s.ask probe probeOf

end Server

/-- What is said when the database cannot be reached. -/
def unreachable : Failure := .reported "Failed to connect to database"

end Herald.Database
