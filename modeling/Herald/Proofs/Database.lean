import Herald.Database
import Herald.Proofs.Recipients

/-!
# What is made of the rows of the database

Rows are read one after the other, each in the same way. A table that cannot be read as a whole is not read at
all, and what is said then is about its first row that is malformed. A query for one row tells apart that there
is none. So what the database keeps is what the service gets to know.

* `readAll_eq_ok`, `readAll_eq_error`: what comes of a table.
* `userSettingsOf_eq_ok`, `userSettingsOf_eq_notFound`, `displayNameOf_eq_ok`: what comes of a query for one row.
* `Server.removal_eq_ok`, `Server.health_eq_ok`: what comes of a query without rows.
* `Records.server_keeps`: a server can keep any records, for it can tell queries apart.
* `Server.Keeps.user` up to `Server.Keeps.replies`: a server that keeps some records answers with these records.
* `Server.Keeps.rowOf` up to `Server.Keeps.activeRows`: they are the rows that recipients are chosen from.
* `Server.Keeps.exact`: an event has recipients if the server is quick enough, and they are those of its
  audience who did not opt out.
-/

namespace Herald.Database

variable {α : Type} {query row subject : String} {a : Answer} {f : Failure}

theorem blame_eq_ok {r : Except String α} {x : α} : blame subject r = .ok x ↔ r = .ok x := by
  cases r <;> simp [blame, Except.mapError]

theorem blame_eq_error {r : Except String α} :
    blame subject r = .error f ↔ ∃ s, r = .error s ∧ f = .reported s!"{subject}: {s}" := by
  cases r <;> simp [blame, Except.mapError, eq_comm]

/-! ## Tables -/

section

variable {read : Row → Except String α} {xs : List α}

/-- A list has a member for each row, in the order of the rows. -/
theorem readAll_eq_ok : readAll query row read a = .ok xs ↔
    ∃ t, a = .ok t ∧ List.Forall₂ (fun r x => read r = .ok x) t.entries xs := by
  unfold readAll
  cases a with
  | error s => simp [blame, Except.mapError, bind, Except.bind]
  | ok t =>
    show blame row (t.entries.mapM read) = .ok xs ↔ _
    rw [blame_eq_ok, mapM_eq_ok]
    simp

/-- There is no list if the query fails, or else if the first row that is malformed is. -/
theorem readAll_eq_error : readAll query row read a = .error f ↔
    (∃ s, a = .error s ∧ f = .reported s!"{query}: {s}") ∨
      ∃ t s, a = .ok t ∧ FailsFirst read t.entries s ∧ f = .reported s!"{row}: {s}" := by
  unfold readAll
  cases a with
  | error s => simp [blame, Except.mapError, bind, Except.bind, eq_comm]
  | ok t =>
    show blame row (t.entries.mapM read) = .error f ↔ _
    rw [blame_eq_error]
    simp only [mapM_eq_error, reduceCtorEq, false_and, exists_false, false_or, Except.ok.injEq]
    exact ⟨fun ⟨s, h⟩ => ⟨t, s, rfl, h⟩, fun ⟨_, s, ht, h⟩ => ⟨s, ht ▸ h⟩⟩

/-- What is written row by row is read back. -/
theorem readAll_written {columns : List (String × ColumnType)} {write : α → List Cell}
    (h : ∀ x, read ⟨columns, write x⟩ = .ok x) (xs : List α) :
    readAll query row read (.ok ⟨columns, xs.map write⟩) = .ok xs := by
  refine readAll_eq_ok.2 ⟨_, rfl, ?_⟩
  rw [Table.entries, List.map_map, List.forall₂_map_left_iff]
  exact List.forall₂_same.2 fun x _ => h x

end

/-! ## One row -/

theorem onlyRow_eq_ok {t : Table} {r : Option Row} : onlyRow t = .ok r ↔ t.entries = r.toList := by
  unfold onlyRow
  split
  · next h => cases r <;> simp [h]
  · next r' h => cases r <;> simp [h]
  · next h₀ h₁ =>
    refine iff_of_false nofun fun h => ?_
    cases r with
    | none => exact h₀ h
    | some r => exact h₁ r h

theorem blame_onlyRow_eq_ok {r : Option Row} : blame subject (a.bind onlyRow) = .ok r ↔
    ∃ t, a = .ok t ∧ t.entries = r.toList := by
  rw [blame_eq_ok]
  cases a <;> simp [Except.bind, onlyRow_eq_ok]

/-- The preferences of a user are found in the only row that there is. -/
theorem userSettingsOf_eq_ok {p : Recipient} : userSettingsOf a = .ok p ↔
    ∃ t r, a = .ok t ∧ t.entries = [r] ∧ r.recipient = .ok p := by
  constructor
  · intro h
    unfold userSettingsOf at h
    split at h
    · cases h
    · cases h
    · next r hr =>
      obtain ⟨t, ht, hrow⟩ := blame_onlyRow_eq_ok.1 hr
      exact ⟨t, r, ht, hrow, blame_eq_ok.1 (Resolver.mapError_eq_ok h)⟩
  · rintro ⟨t, r, ht, hrow, hr⟩
    unfold userSettingsOf
    rw [(blame_onlyRow_eq_ok (r := some r)).2 ⟨t, ht, hrow⟩]
    dsimp only
    rw [hr]
    rfl

/-- That there is none is told apart from all that may be wrong. -/
theorem userSettingsOf_eq_notFound : userSettingsOf a = .error .notFound ↔ ∃ t, a = .ok t ∧ t.rows = [] := by
  have hentries (t : Table) : t.entries = [] ↔ t.rows = [] := List.map_eq_nil_iff
  constructor
  · intro h
    unfold userSettingsOf at h
    split at h
    · cases h
    · next hr =>
      obtain ⟨t, ht, hrow⟩ := blame_onlyRow_eq_ok.1 hr
      exact ⟨t, ht, (hentries t).1 hrow⟩
    · next r hr =>
      cases hp : blame "Malformed settings row" r.recipient with
      | error f => rw [hp] at h; cases h
      | ok p => rw [hp] at h; cases h
  · rintro ⟨t, ht, hrow⟩
    unfold userSettingsOf
    rw [(blame_onlyRow_eq_ok (r := none)).2 ⟨t, ht, (hentries t).2 hrow⟩]

/-- A name is found in the only row, unless there is none. -/
theorem displayNameOf_eq_ok {name : Option String} : displayNameOf a = .ok name ↔
    ∃ t r, a = .ok t ∧ t.entries = Option.toList r ∧
      r.map (Row.text · "display_name") = name.map Except.ok := by
  have hread (r : Option Row) (hr : blame "User query failed" (a.bind onlyRow) = .ok r) :
      displayNameOf a = .ok name ↔ r.map (Row.text · "display_name") = name.map Except.ok := by
    unfold displayNameOf
    rw [hr]
    cases r with
    | none => cases name <;> simp [bind, Except.bind, pure, Except.pure]
    | some r =>
      cases hn : r.text "display_name" <;> cases name <;>
        simp [blame, Except.mapError, bind, Except.bind, Functor.map, Except.map, hn]
  cases hr : blame "User query failed" (a.bind onlyRow) with
  | error f =>
    refine iff_of_false (fun h => ?_) fun ⟨t, r, ht, hrow, _⟩ => ?_
    · unfold displayNameOf at h
      rw [hr] at h
      cases h
    · rw [blame_onlyRow_eq_ok.2 ⟨t, ht, hrow⟩] at hr
      cases hr
  | ok r =>
    rw [hread r hr]
    obtain ⟨t, ht, hrow⟩ := blame_onlyRow_eq_ok.1 hr
    refine ⟨fun h => ⟨t, r, ht, hrow, h⟩, fun ⟨t', r', ht', hrow', h⟩ => ?_⟩
    rw [blame_onlyRow_eq_ok.2 ⟨t', ht', hrow'⟩] at hr
    rwa [← Except.ok.inj hr]

theorem blame_done_eq_ok : blame subject (a.map fun _ => ()) = .ok () ↔ ∃ t, a = .ok t := by
  rw [blame_eq_ok]
  cases a <;> simp [Except.map]

/-- A device is removed once the query is done. -/
theorem Server.removal_eq_ok {s : Server} {token : DeviceToken} :
    (s.removal token).answer = .ok () ↔ ∃ t, (s (removeDevice token)).answer = .ok t :=
  blame_done_eq_ok

/-- A database is healthy if it answers a probe. -/
theorem Server.health_eq_ok {s : Server} :
    s.health.answer = .ok () ↔ ∃ t, (s probe).answer = .ok t :=
  blame_done_eq_ok

/-! ## Rows -/

/-- A frequency as a settings code. -/
def code : RoomFrequency → Int
  | .off => 0
  | .infrequent => 1
  | .normal => 2
  | .frequent => 3

theorem ofCode_code (f : RoomFrequency) : .ofCode (code f) = f := by cases f <;> rfl

/-- The columns of preferences. -/
def preferencesShown : List (String × ColumnType) :=
  [("user_id", .int8), ("room_frequency", .int2), ("follows", .bool), ("welcome_rooms", .bool)]

/-- Preferences in a row. -/
def preferencesRow (r : Recipient) : List Cell :=
  [.number r.user.toInt, .number (code r.roomFrequency), .truth r.wantsFollows, .truth r.wantsWelcomes]

/-- A table of preferences. -/
def preferencesTable (rs : List Recipient) : Table := ⟨preferencesShown, rs.map preferencesRow⟩

/-- A table of a single column with numbers. -/
def idTable (column : String) (ids : List Int64) : Table :=
  ⟨[(column, .int8)], ids.map fun n => [.number n.toInt]⟩

/-- A table of a single column with texts. -/
def textTable (column : String) (texts : List String) : Table :=
  ⟨[(column, .text)], texts.map fun s => [.text s]⟩

theorem recipient_row (r : Recipient) : Row.recipient ⟨preferencesShown, preferencesRow r⟩ = .ok r := by
  simp [Row.recipient, Row.id, Row.short, Row.truth, Row.cell, preferencesShown, preferencesRow,
    bind, Except.bind, pure, Except.pure, ofCode_code]

theorem id_row (column : String) (n : Int64) :
    Row.id ⟨[(column, .int8)], [.number n.toInt]⟩ column = .ok n := by
  simp [Row.id, Row.cell, bind, Except.bind, pure, Except.pure]

theorem text_row (column s : String) : Row.text ⟨[(column, .text)], [.text s]⟩ column = .ok s := by
  simp [Row.text, Row.cell, bind, Except.bind, pure, Except.pure]

theorem settingsOf_preferencesTable (rs : List Recipient) :
    settingsOf (.ok (preferencesTable rs)) = .ok rs := by
  rw [settingsOf, preferencesTable, readAll_written recipient_row]
  rfl

theorem userSettingsOf_preferencesTable (r : Option Recipient) :
    userSettingsOf (.ok (preferencesTable r.toList)) = r.elim (.error .notFound) .ok := by
  cases r with
  | none => exact userSettingsOf_eq_notFound.2 ⟨_, rfl, rfl⟩
  | some r => exact userSettingsOf_eq_ok.2 ⟨_, _, rfl, rfl, recipient_row r⟩

theorem displayNameOf_textTable (name : Option String) :
    displayNameOf (.ok (textTable "display_name" name.toList)) = .ok name := by
  cases name with
  | none => exact displayNameOf_eq_ok.2 ⟨_, none, rfl, rfl, rfl⟩
  | some name => exact displayNameOf_eq_ok.2 ⟨_, some _, rfl, rfl, congrArg some (text_row _ name)⟩

/-! ## Records -/

/-- What a database knows. -/
structure Records where
  preferences : UserId → Option Recipient
  followers : UserId → List Recipient
  /-- So many users who were active last. -/
  active : Int64 → List Recipient
  tokens : UserId → List DeviceToken
  names : UserId → Option String
  recommendations : UserId → Int64 → List UserId
  candidates : Int64 → List UserId
  own : ∀ user r, preferences user = some r → r.user = user

/-- The answers of a server are what these records say, each in a table of the columns asked for. -/
structure Server.Keeps (s : Server) (k : Records) : Prop where
  preferences : ∀ user, (s (userSettings user)).answer = .ok (preferencesTable (k.preferences user).toList)
  followers : ∀ user, (s (followerSettings user)).answer = .ok (preferencesTable (k.followers user))
  active : ∀ limit, (s (activeSettings limit)).answer = .ok (preferencesTable (k.active limit))
  tokens : ∀ user, (s (devices user)).answer = .ok (textTable "token" (k.tokens user))
  names : ∀ user, (s (displayName user)).answer = .ok (textTable "display_name" (k.names user).toList)
  recommendations : ∀ user limit,
    (s (Database.recommendations user limit)).answer = .ok (idTable "id" (k.recommendations user limit))
  candidates : ∀ limit,
    (s (Database.candidates limit)).answer = .ok (idTable "user_id" (k.candidates limit))

/-- What the records say to a query about a number: a user, or how many users are asked for. -/
def Records.table (k : Records) (n : Int64) (sql : String) : Table :=
  if sql = (userSettings 0).sql then preferencesTable (k.preferences n).toList
  else if sql = (followerSettings 0).sql then preferencesTable (k.followers n)
  else if sql = (activeSettings 0).sql then preferencesTable (k.active n)
  else if sql = (devices 0).sql then textTable "token" (k.tokens n)
  else if sql = (displayName 0).sql then textTable "display_name" (k.names n).toList
  else idTable "user_id" (k.candidates n)

/-- A server that keeps these records and answers at once. -/
def Records.server (k : Records) : Server := fun q =>
  match q.parameters with
  | [.number n] => .now (k.table n q.sql)
  | [.number user, .number limit] => .now (idTable "id" (k.recommendations user limit))
  | _ => .now ⟨[], []⟩

theorem nodup_queries : [(userSettings 0).sql, (followerSettings 0).sql, (activeSettings 0).sql, (devices 0).sql,
    (displayName 0).sql, (Database.candidates 0).sql].Nodup := by
  decide +kernel

/-- Queries for different things differ, so a server can tell what it is asked for. -/
theorem Records.server_keeps (k : Records) : k.server.Keeps k := by
  have hne := nodup_queries
  simp only [List.nodup_cons, List.mem_cons, List.not_mem_nil, or_false, not_or] at hne
  obtain ⟨⟨hf, ha, hd, hn, hc⟩, ⟨hfa, hfd, hfn, hfc⟩, ⟨had, han, hac⟩, ⟨hdn, hdc⟩, hnc, -⟩ := hne
  have htable {n : Int64} {sql : String} {t : Table} (h : k.table n sql = t) :
      (k.server ⟨sql, [.number n]⟩).answer = .ok t := congrArg Except.ok h
  refine ⟨fun n => htable ?_, fun n => htable ?_, fun n => htable ?_, fun n => htable ?_,
    fun n => htable ?_, fun _ _ => rfl, fun n => htable ?_⟩
  · exact if_pos rfl
  · exact (if_neg (Ne.symm hf)).trans (if_pos rfl)
  · exact (if_neg (Ne.symm ha)).trans ((if_neg (Ne.symm hfa)).trans (if_pos rfl))
  · exact (if_neg (Ne.symm hd)).trans ((if_neg (Ne.symm hfd)).trans
      ((if_neg (Ne.symm had)).trans (if_pos rfl)))
  · exact (if_neg (Ne.symm hn)).trans ((if_neg (Ne.symm hfn)).trans
      ((if_neg (Ne.symm han)).trans ((if_neg (Ne.symm hdn)).trans (if_pos rfl))))
  · exact (if_neg (Ne.symm hc)).trans ((if_neg (Ne.symm hfc)).trans
      ((if_neg (Ne.symm hac)).trans ((if_neg (Ne.symm hdc)).trans (if_neg (Ne.symm hnc)))))

namespace Server.Keeps

variable {s : Server} {k : Records} {r : Resolver} {e : Event}

theorem user (h : s.Keeps k) (position : Nat) (user : UserId) :
    (s.settings.user position user).answer = (k.preferences user).elim (.error .notFound) .ok := by
  show userSettingsOf _ = _
  rw [h.preferences, userSettingsOf_preferencesTable]

theorem followersOf (h : s.Keeps k) (user : UserId) :
    (s.settings.followers user).answer = .ok (k.followers user) := by
  show settingsOf _ = _
  rw [h.followers, settingsOf_preferencesTable]

theorem activeUsers (h : s.Keeps k) (limit : Int64) :
    (s.settings.activeUsers limit).answer = .ok (k.active limit) := by
  show settingsOf _ = _
  rw [h.active, settingsOf_preferencesTable]

/-- What is asked about users and their accounts is answered as the records say. -/
theorem replies (h : s.Keeps k) :
    (∀ user, (s.name user).answer = .ok (k.names user)) ∧
    (∀ user, (s.tokens user).answer = .ok (k.tokens user)) ∧
    (∀ user limit, (s.recommended user limit).answer = .ok (k.recommendations user limit)) ∧
    (∀ limit, (s.eligible limit).answer = .ok (k.candidates limit)) := by
  refine ⟨fun user => ?_, fun user => ?_, fun user limit => ?_, fun limit => ?_⟩
  · show displayNameOf _ = _
    rw [h.names, displayNameOf_textTable]
  · show devicesOf _ = _
    rw [h.tokens]
    exact readAll_written (text_row "token") _
  · show recommendationsOf _ = _
    rw [h.recommendations]
    exact readAll_written (id_row "id") _
  · show candidatesOf _ = _
    rw [h.candidates]
    exact readAll_written (id_row "user_id") _

/-! ## The recipients of an event -/

theorem own (h : s.Keeps k) : s.settings.Own := by
  intro position id row ha
  rw [h.user] at ha
  cases hk : k.preferences id with
  | none => rw [hk] at ha; cases ha
  | some p =>
    rw [hk] at ha
    exact Except.ok.inj ha ▸ k.own id p hk

theorem rowOf (h : s.Keeps k) (hr : r.settings = s.settings) (p : UserId × Nat) :
    r.rowOf p = (k.preferences p.1).getD (.withDefaults p.1) := by
  rw [Resolver.rowOf, hr, Reply.rows, h.user]
  cases k.preferences p.1 <;> rfl

theorem followerRows (h : s.Keeps k) (hr : r.settings = s.settings) (user : UserId) :
    r.followerRows user = k.followers user := by
  rw [Resolver.followerRows, hr, Reply.rows, h.followersOf]

theorem activeRows (h : s.Keeps k) (hr : r.settings = s.settings) :
    r.activeRows = r.latest (k.active r.recentLimit) := by
  rw [Resolver.activeRows, hr, Reply.rows, h.activeUsers]

/-- A lookup does not fail that is answered in time, or comes upon no row. -/
theorem check_of {α : Type} {limit : Limit} {operation : String} {call : Call}
    {blame : Failure → ResolutionError} {reply : Reply StoreError α} (hd : reply.delay ≤ limit.expiry)
    (ha : ∀ f, reply.answer ≠ .error (.failed f)) :
    (Resolver.Lookup.of limit operation call blame reply).check = .ok () := by
  unfold Resolver.Lookup.check Resolver.Lookup.of
  rw [if_pos hd]
  rcases reply with ⟨delay, (_ | f) | a⟩
  · rfl
  · exact absurd rfl (ha f)
  · rfl

/-- No lookup fails as long as the database is quick enough. -/
theorem check_lookups (h : s.Keeps k) (hr : r.settings = s.settings)
    (hd : ∀ q, (s q).delay ≤ r.limit.expiry) : ∀ l ∈ r.lookups e, l.check = .ok () := by
  have husers (p : UserId × Nat) : (r.settingsLookup p).check = .ok () := by
    refine check_of (hr ▸ hd (userSettings p.1)) fun f => ?_
    rw [hr, h.user]
    cases k.preferences p.1 <;> exact nofun
  have hfollowers (id : UserId) : (r.followersLookup id).check = .ok () := by
    refine check_of (hr ▸ hd (followerSettings id)) fun f => ?_
    rw [hr, h.followersOf]
    exact nofun
  have hactive : r.activeLookup.check = .ok () := by
    refine check_of (hr ▸ hd (activeSettings r.recentLimit)) fun f => ?_
    rw [hr, h.activeUsers]
    exact nofun
  cases e with
  | newFollower | roomInvite | followRecommendations =>
    exact List.forall_mem_singleton.2 (husers _)
  | roomCreation | roomJoin => exact List.forall_mem_singleton.2 (hfollowers _)
  | welcomeRoom =>
    rw [Resolver.lookups, hactive]
    exact List.forall_mem_cons.2 ⟨hactive, List.forall_mem_map.2 fun p _ => husers p⟩

/-- From the records to the recipients: if the database is quick enough, an event has recipients, and they are
those of its audience who have not opted out. -/
theorem exact (h : s.Keeps k) (hr : r.settings = s.settings) (hd : ∀ q, (s q).delay ≤ r.limit.expiry) :
    ∃ targets, (r.resolve e).run.value = .ok targets ∧ r.Exact e targets := by
  cases hv : (r.resolve e).run.value with
  | error cause =>
    obtain ⟨l, hl, c, hc⟩ := Resolver.exists_failsFirst.1 ⟨cause, Resolver.resolve_eq_error.1 hv⟩
    rw [h.check_lookups hr hd l hl] at hc
    cases hc
  | ok targets =>
    refine ⟨targets, rfl, ?_⟩
    rw [Resolver.resolve_eq_ok hv]
    exact Resolver.exact_chosen (hr ▸ h.own)

end Server.Keeps

end Herald.Database
