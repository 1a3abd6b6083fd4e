import Herald.Cooldown
import Herald.Text.Number

/-!
# Configuration

What an operator sets, as pairs of names and values. A `Field` is something that can be set; its
`Form` says which values it takes, and a field without a default has to be set. The pairs are read
in order and the first thing wrong with them is reported: a field set twice, or a value that does
not fit. Then missing fields are looked for in the order of `Field.all`, and last come the checks
that relate to what the values are for.

* `Configuration.ofPairs`: the configuration that pairs describe.

Here are `from_pairs` (`Configuration.ofPairs`) and `validate` (`Configuration.problem?`).
-/

namespace Herald

/-- The values that a field takes. -/
inductive Form where
  | text
  | optionalText
  /-- A 16-bit number. -/
  | short
  /-- A 64-bit number. -/
  | size
  /-- A 64-bit number that may be negative. -/
  | signed
  /-- User ids, separated by commas. -/
  | users
deriving DecidableEq, Repr

namespace Form

/-- The type of the values of a form. -/
abbrev Value : Form → Type
  | text => String
  | optionalText => Option String
  | short => UInt16
  | size => UInt64
  | signed => Int64
  | users => List Int64

/-- The pieces between commas. -/
def pieces (s : String) : List String := go [] s.toList
where
  /-- The pieces of a text whose first piece has begun with `piece`, last character first. -/
  go (piece : List Char) : List Char → List String
    | [] => [String.ofList piece.reverse]
    | ',' :: rest => String.ofList piece.reverse :: go [] rest
    | c :: rest => go (c :: piece) rest

/-- The user ids in pieces; a piece that is no id is reported with what is wrong with it. -/
def readUsers : List String → Except (NumberProblem × String) (List Int64)
  | [] => .ok []
  | p :: rest =>
    match Number.signed p with
    | .error problem => .error (problem, p)
    | .ok n => (readUsers rest).map (Int64.ofInt n :: ·)

/-- The value that a text says; what is wrong with a text comes with the piece of it at fault. -/
def read : (k : Form) → String → Except (NumberProblem × String) k.Value
  | text, s => .ok s
  | optionalText, s => .ok (some s)
  | short, s => ((Number.unsigned (twoPow 16 - 1) s).map UInt16.ofNat).mapError (·, s)
  | size, s => ((Number.unsigned (twoPow 64 - 1) s).map UInt64.ofNat).mapError (·, s)
  | signed, s => ((Number.signed s).map Int64.ofInt).mapError (·, s)
  | users, s => if s = "" then .ok [] else readUsers (pieces s)

end Form

/-- Something that can be set. -/
inductive Field where
  | rabbitmqUrl
  | userEventsQueue
  | roomEventsQueue
  | prefetchCount
  | redisUrl
  | databaseUrl
  | roomServiceUrl
  | fcmProjectId
  | fcmEndpoint
  | fcmAccessToken
  | workerPoolSize
  | jobQueueCapacity
  | unregisteredSinkCapacity
  | targetConcurrency
  | roomCooldownSeconds
  | roomInviteCooldownSeconds
  | historyCap
  | welcomeRoomRecentLimit
  | welcomeRoomGreeters
  | externalCallTimeoutMs
  | recommendationPoolSize
  | recommendationIntervalSeconds
  | recommendationBatchSize
  | recommendationLimit
  | serverPort
deriving DecidableEq, Repr

namespace Field

/-- Every field, in the order in which missing ones are reported. -/
def all : List Field :=
  [rabbitmqUrl, userEventsQueue, roomEventsQueue, prefetchCount, redisUrl, databaseUrl,
    roomServiceUrl, fcmProjectId, fcmEndpoint, fcmAccessToken, workerPoolSize, jobQueueCapacity,
    unregisteredSinkCapacity, targetConcurrency, roomCooldownSeconds, roomInviteCooldownSeconds,
    historyCap, welcomeRoomRecentLimit, welcomeRoomGreeters, externalCallTimeoutMs,
    recommendationPoolSize, recommendationIntervalSeconds, recommendationBatchSize,
    recommendationLimit, serverPort]

theorem mem_all (f : Field) : f ∈ all := by cases f <;> decide

/-- The name of a field, in lower case. -/
def name : Field → String
  | rabbitmqUrl => "rabbitmq_url"
  | userEventsQueue => "user_events_queue"
  | roomEventsQueue => "room_events_queue"
  | prefetchCount => "prefetch_count"
  | redisUrl => "redis_url"
  | databaseUrl => "database_url"
  | roomServiceUrl => "room_service_url"
  | fcmProjectId => "fcm_project_id"
  | fcmEndpoint => "fcm_endpoint"
  | fcmAccessToken => "fcm_access_token"
  | workerPoolSize => "worker_pool_size"
  | jobQueueCapacity => "job_queue_capacity"
  | unregisteredSinkCapacity => "unregistered_sink_capacity"
  | targetConcurrency => "target_concurrency"
  | roomCooldownSeconds => "room_cooldown_seconds"
  | roomInviteCooldownSeconds => "room_invite_cooldown_seconds"
  | historyCap => "history_cap"
  | welcomeRoomRecentLimit => "welcome_room_recent_limit"
  | welcomeRoomGreeters => "welcome_room_greeters"
  | externalCallTimeoutMs => "external_call_timeout_ms"
  | recommendationPoolSize => "recommendation_pool_size"
  | recommendationIntervalSeconds => "recommendation_interval_seconds"
  | recommendationBatchSize => "recommendation_batch_size"
  | recommendationLimit => "recommendation_limit"
  | serverPort => "server_port"

/-- The values that a field takes. -/
def form : Field → Form
  | rabbitmqUrl | userEventsQueue | roomEventsQueue | redisUrl | databaseUrl | roomServiceUrl
  | fcmProjectId | fcmEndpoint => .text
  | fcmAccessToken => .optionalText
  | prefetchCount | serverPort => .short
  | workerPoolSize | jobQueueCapacity | unregisteredSinkCapacity | targetConcurrency
  | roomCooldownSeconds | roomInviteCooldownSeconds | historyCap | externalCallTimeoutMs
  | recommendationPoolSize | recommendationIntervalSeconds => .size
  | welcomeRoomRecentLimit | recommendationBatchSize | recommendationLimit => .signed
  | welcomeRoomGreeters => .users

/-- The type of a field's values. -/
abbrev Value (f : Field) : Type := f.form.Value

/-- The value of a field that is not set; none if it has to be. -/
def default? : (f : Field) → Option f.Value
  | rabbitmqUrl | redisUrl | databaseUrl | roomServiceUrl | fcmProjectId => none
  | userEventsQueue => some "user-lifecycle"
  | roomEventsQueue => some "room-lifecycle"
  | prefetchCount => some (20 : UInt16)
  | fcmEndpoint => some "https://fcm.googleapis.com"
  | fcmAccessToken => some (none : Option String)
  | workerPoolSize => some (5 : UInt64)
  | jobQueueCapacity => some (100 : UInt64)
  | unregisteredSinkCapacity => some (64 : UInt64)
  | targetConcurrency => some (8 : UInt64)
  | roomCooldownSeconds => some (1800 : UInt64)
  | roomInviteCooldownSeconds => some (300 : UInt64)
  | historyCap => some (10 : UInt64)
  | welcomeRoomRecentLimit => some (5 : Int64)
  | welcomeRoomGreeters => some ([] : List Int64)
  | externalCallTimeoutMs => some (5000 : UInt64)
  | recommendationPoolSize => some (2 : UInt64)
  | recommendationIntervalSeconds => some (86400 : UInt64)
  | recommendationBatchSize => some (100 : Int64)
  | recommendationLimit => some (3 : Int64)
  | serverPort => some (8080 : UInt16)

/-- A character in lower case, as far as names of fields are concerned: the ASCII letters and the
Kelvin sign, the one other character whose lower case is an ASCII letter. -/
def lowerChar (c : Char) : Char := if c = '\u212a' then 'k' else c.toLower

/-- The field that a name stands for, without regard to case. -/
def ofName? (s : String) : Option Field :=
  let lower := String.ofList (s.toList.map lowerChar)
  all.find? (·.name == lower)

end Field

/-- A value for every field. -/
structure Configuration where
  get : (f : Field) → f.Value

/-- What is wrong with pairs of names and values. -/
inductive PairProblem where
  | duplicate (f : Field)
  /-- `name` is the field's name as it was given. -/
  | badNumber (problem : NumberProblem) (value name : String)
  | missing (f : Field)
deriving DecidableEq, Repr

/-- What is wrong with values that fit their fields. -/
inductive CheckProblem where
  | noWorkers
  | noRecommendationWorkers
  | noQueueCapacity
  | noTargetConcurrency
  | noHistory
deriving DecidableEq, Repr

/-- Where pairs come from. -/
inductive PairSource where
  | given
  | environment
deriving DecidableEq, Repr

/-- Why there is no configuration. -/
inductive ConfigurationError where
  | pairs (source : PairSource) (problem : PairProblem)
  | check (problem : CheckProblem)
deriving DecidableEq, Repr

namespace PairProblem

/-- The text of a problem. -/
def message : PairProblem → String
  | .duplicate f => s!"duplicate field \x60{f.name}\x60"
  | .badNumber problem value name =>
    s!"{problem.message} while parsing value '{value}' provided by {name}"
  | .missing f => s!"missing value for field {f.name}"

end PairProblem

namespace CheckProblem

/-- The text of a problem. -/
def message : CheckProblem → String
  | .noWorkers => "WORKER_POOL_SIZE must be at least 1"
  | .noRecommendationWorkers => "RECOMMENDATION_POOL_SIZE must be at least 1"
  | .noQueueCapacity => "Queue capacities must be at least 1"
  | .noTargetConcurrency => "TARGET_CONCURRENCY must be at least 1"
  | .noHistory => "HISTORY_CAP must be at least 1"

end CheckProblem

namespace ConfigurationError

/-- The text of an error. -/
def message : ConfigurationError → String
  | .pairs .given problem => s!"Invalid configuration: {problem.message}"
  | .pairs .environment problem =>
    s!"Invalid or missing environmental variable: {problem.message}"
  | .check problem => problem.message

end ConfigurationError

namespace Configuration

/-! ## From pairs -/

/-- The fields set so far. -/
abbrev Draft := (f : Field) → Option f.Value

/-- Nothing is set. -/
def Draft.empty : Draft := fun _ => none

/-- The draft with one field set. -/
def Draft.set (d : Draft) (f : Field) (v : f.Value) : Draft :=
  fun g => if h : f = g then some (h ▸ v) else d g

/-- Reads one pair. -/
def readPair (d : Draft) (name value : String) : Except PairProblem Draft :=
  match Field.ofName? name with
  | none => .ok d
  | some f =>
    if (d f).isSome then .error (.duplicate f)
    else match f.form.read value with
      | .error (problem, piece) => .error (.badNumber problem piece name)
      | .ok v => .ok (d.set f v)

/-- Reads pairs in order. -/
def readPairs : Draft → List (String × String) → Except PairProblem Draft
  | d, [] => .ok d
  | d, (name, value) :: rest => do readPairs (← readPair d name value) rest

/-- The value of a field in a draft, or its default. -/
def Draft.value? (d : Draft) (f : Field) : Option f.Value := d f <|> f.default?

/-- The configuration of a draft, unless a field is missing. -/
def Draft.complete (d : Draft) : Except PairProblem Configuration :=
  match h : Field.all.find? fun f => (d.value? f).isNone with
  | some f => .error (.missing f)
  | none => .ok ⟨fun f => (d.value? f).get (by
      have hf := List.find?_eq_none.1 h f f.mem_all
      simpa [Option.isSome_iff_ne_none] using hf)⟩

/-! ## Checks -/

/-- The number of workers of the delivery pool. -/
abbrev workerPoolSize (c : Configuration) : Nat := (c.get .workerPoolSize : UInt64).toNat

/-- The number of workers of the recommendation pool. -/
abbrev recommendationPoolSize (c : Configuration) : Nat :=
  (c.get .recommendationPoolSize : UInt64).toNat

/-- How many jobs may wait for a worker. -/
abbrev jobQueueCapacity (c : Configuration) : Nat := (c.get .jobQueueCapacity : UInt64).toNat

/-- How many unregistered devices may wait to be removed. -/
abbrev unregisteredSinkCapacity (c : Configuration) : Nat :=
  (c.get .unregisteredSinkCapacity : UInt64).toNat

/-- How many recipients of one job are served at the same time. -/
abbrev targetConcurrency (c : Configuration) : Nat := (c.get .targetConcurrency : UInt64).toNat

/-- How many entries a history keeps. -/
abbrev historyCap (c : Configuration) : Nat := (c.get .historyCap : UInt64).toNat

/-- The first check that the values do not pass. -/
def problem? (c : Configuration) : Option CheckProblem :=
  if c.workerPoolSize = 0 then some .noWorkers
  else if c.recommendationPoolSize = 0 then some .noRecommendationWorkers
  else if c.jobQueueCapacity = 0 ∨ c.unregisteredSinkCapacity = 0 then some .noQueueCapacity
  else if c.targetConcurrency = 0 then some .noTargetConcurrency
  else if c.historyCap = 0 then some .noHistory
  else none

/-- The configuration that pairs from a source describe. -/
def ofPairs (source : PairSource) (pairs : List (String × String)) :
    Except ConfigurationError Configuration := do
  let c ← ((readPairs Draft.empty pairs).bind Draft.complete).mapError (.pairs source)
  match c.problem? with
  | some problem => .error (.check problem)
  | none => pure c

/-! ## Durations -/

/-- How long a call to another service may take. -/
def callLimit (c : Configuration) : Limit := .ofMillis (c.get .externalCallTimeoutMs : UInt64).toNat

/-- How long cooldowns last. -/
def cooldowns (c : Configuration) : Cooldown.Durations :=
  .ofSeconds (c.get .roomCooldownSeconds : UInt64).toNat
    (c.get .roomInviteCooldownSeconds : UInt64).toNat

/-- Milliseconds between two rounds of recommendations. -/
def recommendationInterval (c : Configuration) : Nat :=
  (c.get .recommendationIntervalSeconds : UInt64).toNat * 1000

end Configuration

end Herald
