import Herald.Json.Printer
import Herald.Json.Record

/-!
# Health

How the services that this one depends on are doing, and what that says about this one.

* `overall`: the worst of all.

Here are `healthy`, `degraded` and `unhealthy` of a service, and `from_checks` (`HealthReport`).
-/

namespace Herald

/-- How a service is doing, from good to bad. -/
inductive HealthStatus where
  | healthy
  | degraded
  | unhealthy
deriving DecidableEq, Repr

namespace HealthStatus

/-- The name of a status. -/
def name : HealthStatus → String
  | .healthy => "healthy"
  | .degraded => "degraded"
  | .unhealthy => "unhealthy"

/-- The status of that name. -/
def ofName? (s : String) : Option HealthStatus :=
  [HealthStatus.healthy, .degraded, .unhealthy].find? (·.name == s)

end HealthStatus

/-- What a check of one service found. -/
structure ServiceHealth where
  status : HealthStatus
  responseMillis : Option Nat
  error : Option String
deriving DecidableEq, Repr

namespace ServiceHealth

/-- The service answered in time. -/
def healthy (ms : Nat) : ServiceHealth := ⟨.healthy, some ms, none⟩

/-- The service answered, but slower than a call may take. -/
def degraded (ms : Nat) : ServiceHealth :=
  ⟨.degraded, some ms, some "Response slower than call timeout"⟩

/-- The service did not answer as it should. -/
def unhealthy (error : String) : ServiceHealth := ⟨.unhealthy, none, some error⟩

/-- A finding as a value; what is not known is left out. -/
def toJson (h : ServiceHealth) : Json :=
  .object (("status", .text h.status.name) ::
    (h.responseMillis.toList.map fun ms => ("response_time_ms", .integer ms)) ++
    (h.error.toList.map fun e => ("error", .text e)))

open Source in
/-- The finding that a source is. As a list it has all three fields. -/
def ofSource? (s : Source) : Option ServiceHealth := do
  match ← fields? ["status", "response_time_ms", "error"] 3 s with
  | [some status, ms, error] =>
    pure ⟨← enumeration? .strict HealthStatus.ofName? status,
      ← defaulted? none (orNull? count?) ms, ← defaulted? none (orNull? text?) error⟩
  | _ => none

end ServiceHealth

/-- The findings about all services, by their names. -/
structure HealthReport where
  checks : List (String × ServiceHealth)

namespace HealthReport

/-- The worst status found; healthy if nothing was checked. -/
def overall (r : HealthReport) : HealthStatus :=
  if r.checks.any (·.2.status = .unhealthy) then .unhealthy
  else if r.checks.any (·.2.status = .degraded) then .degraded
  else .healthy

/-- The report as a value; `timestamp` is the time of the report as text. -/
def toJson (timestamp : String) (r : HealthReport) : Json :=
  .object [("status", .text r.overall.name), ("timestamp", .text timestamp),
    ("checks", .object (r.checks.map fun c => (c.1, c.2.toJson)))]

end HealthReport

end Herald
