import Herald.Call
import Herald.Health
import Herald.Http.Status

/-!
# Probing the dependencies

The database and the cache are probed side by side, each for at most twice the time that a call may
take. A probe that succeeds later than a call would have been allowed to makes a service degraded.
The broker is asked nothing: its connection is up or it is lost.

* `elapsed_check`: the answer comes within twice the limit of a call.

Here are `check_all` (`check`) and `probe` of the health checker, and the `router` with its
`health_check` (`answer`).
-/

namespace Herald.Health

/-- How the dependencies are doing. -/
structure World where
  database : Reply Failure Unit
  cache : Reply Failure Unit
  /-- The connection to the broker is up. -/
  isConnected : Bool

/-- Twice a limit. -/
def twice (l : Limit) : Limit := ⟨l.micros * 2⟩

/-- What a probe finds, and after how many milliseconds. -/
def probe (limit : Limit) (name : String) (r : Reply Failure Unit) : ServiceHealth × Nat :=
  let bounded := r.within (twice limit) name
  match bounded.answer with
  | .ok () =>
    (if bounded.delay * 1000 ≤ limit.micros then .healthy bounded.delay
      else .degraded bounded.delay, bounded.delay)
  | .error cause => (.unhealthy cause.message, bounded.delay)

/-- What is found about the connection to the broker. -/
def broker (isConnected : Bool) : ServiceHealth :=
  if isConnected then .healthy 0 else .unhealthy "Connection lost"

/-- Probes everything; yields the findings, and how long it took. -/
def check (limit : Limit) (w : World) : HealthReport × Nat :=
  let database := probe limit "database" w.database
  let cache := probe limit "cache_service" w.cache
  (⟨[("database", database.1), ("cache_service", cache.1), ("message_broker", broker w.isConnected)]⟩,
    max database.2 cache.2)

/-- The status of the answer that a report makes. -/
def status (r : HealthReport) : Http.Status :=
  if r.overall = .unhealthy then .unavailable else .ok

/-! ## The endpoint -/

/-- What the endpoint is asked for. -/
inductive Inquiry where
  | report
  /-- The status alone. -/
  | head
  | other
deriving DecidableEq, Repr

/-- What a request asks for: none if there is nothing at its path. -/
def inquiry? (method path : String) : Option Inquiry :=
  if String.ofList (path.toList.takeWhile (· != '?')) = "/health" then
    some (if method = "GET" then .report else if method = "HEAD" then .head else .other)
  else none

/-- The status of the answer to a request and the report in it, if there is one. -/
def answer (limit : Limit) (w : World) (method path : String) : Http.Status × Option HealthReport :=
  match inquiry? method path with
  | none => (.notFound, none)
  | some .other => (⟨405⟩, none)
  | some .head => (status (check limit w).1, none)
  | some .report =>
    let r := (check limit w).1
    (status r, some r)

theorem elapsed_probe (limit : Limit) (name : String) (r : Reply Failure Unit) :
    (probe limit name r).2 ≤ (twice limit).expiry := by
  have h := r.delay_within_le (twice limit) name
  unfold probe
  dsimp only
  split <;> exact h

theorem elapsed_check (limit : Limit) (w : World) :
    (check limit w).2 ≤ (twice limit).expiry :=
  Nat.max_le.2 ⟨elapsed_probe .., elapsed_probe ..⟩

end Herald.Health
