import Herald.Health.Probe

/-!
# How the service is doing

The service is as well as the worst of what it depends on. What a probe finds is decided by when the answer comes: in
the time of a call, in twice that time, or not at all.

* `HealthReport.worst_overall`: the status of a report is the worst one in it.
* `Health.probe_finds`: what a probe finds, and `Health.elapsed_probe_eq`: how long it takes.
* `Health.mem_checks`: what the report says about each service.
* `Health.health_exact`: what the endpoint answers, after what time, and what becomes of any findings.
-/

namespace Herald

/-! ## Statuses -/

namespace HealthStatus

/-- How bad a status is. -/
def severity : HealthStatus → Nat
  | .healthy => 0
  | .degraded => 1
  | .unhealthy => 2

/-- Healthy is better than degraded, and that is better than unhealthy. -/
instance : LE HealthStatus := ⟨fun a b => a.severity ≤ b.severity⟩

instance (a b : HealthStatus) : Decidable (a ≤ b) := inferInstanceAs (Decidable (a.severity ≤ b.severity))

theorem eq_of_le_of_le {a b : HealthStatus} (hab : a ≤ b) (hba : b ≤ a) : a = b := by
  cases a <;> cases b <;> first | rfl | exact absurd hab (by decide) | exact absurd hba (by decide)

theorem healthy_le (s : HealthStatus) : .healthy ≤ s := Nat.zero_le _

theorem le_unhealthy (s : HealthStatus) : s ≤ .unhealthy := by cases s <;> decide

theorem le_degraded {s : HealthStatus} (h : s ≠ .unhealthy) : s ≤ .degraded := by
  cases s with
  | unhealthy => exact absurd rfl h
  | healthy | degraded => decide

theorem name_injective {s t : HealthStatus} (h : s.name = t.name) : s = t := by
  cases s <;> cases t <;> first | rfl | exact absurd h (by decide)

/-- The worst of some statuses; of none, the best there is. -/
structure Worst (statuses : List HealthStatus) (worst : HealthStatus) : Prop where
  le : ∀ s ∈ statuses, s ≤ worst
  mem : worst ∈ statuses ∨ statuses = [] ∧ worst = .healthy

theorem Worst.unique {statuses : List HealthStatus} {a b : HealthStatus} (ha : Worst statuses a)
    (hb : Worst statuses b) : a = b := by
  rcases ha.mem with hma | ⟨rfl, rfl⟩
  · rcases hb.mem with hmb | ⟨rfl, -⟩
    · exact eq_of_le_of_le (hb.le a hma) (ha.le b hmb)
    · cases hma
  · rcases hb.mem with hmb | ⟨-, rfl⟩
    · cases hmb
    · rfl

theorem Worst.perm {statuses statuses' : List HealthStatus} {a : HealthStatus} (h : Worst statuses a)
    (hp : statuses.Perm statuses') : Worst statuses' a where
  le s hs := h.le s (hp.mem_iff.2 hs)
  mem := h.mem.imp hp.mem_iff.1 fun ⟨hn, ha⟩ => ⟨List.nil_perm.1 (hn ▸ hp), ha⟩

end HealthStatus

/-! ## Reports -/

namespace HealthReport

open HealthStatus

variable {checks checks' : List (String × ServiceHealth)}

/-- The statuses that were found. -/
def statuses (checks : List (String × ServiceHealth)) : List HealthStatus := checks.map (·.2.status)

theorem overall_eq (checks : List (String × ServiceHealth)) : overall ⟨checks⟩ =
    if .unhealthy ∈ statuses checks then .unhealthy
    else if .degraded ∈ statuses checks then .degraded else .healthy := by
  have hany (s : HealthStatus) : (checks.any (·.2.status = s)) = true ↔ s ∈ statuses checks := by
    simp [statuses]
  simp only [overall, hany]

/-- The status of a report is the worst status in it. -/
theorem worst_overall (checks : List (String × ServiceHealth)) :
    Worst (statuses checks) (overall ⟨checks⟩) := by
  rw [overall_eq]
  split
  · next h => exact ⟨fun s _ => le_unhealthy s, .inl h⟩
  · next hu =>
    split
    · next h => exact ⟨fun s hs => le_degraded fun e => hu (e ▸ hs), .inl h⟩
    · next hd =>
      have hall : ∀ s ∈ statuses checks, s = .healthy := by
        intro s hs
        cases s with
        | healthy => rfl
        | degraded => exact absurd hs hd
        | unhealthy => exact absurd hs hu
      refine ⟨fun s hs => (hall s hs).symm ▸ healthy_le _, ?_⟩
      cases hc : statuses checks with
      | nil => exact .inr ⟨rfl, rfl⟩
      | cons s ss =>
        rw [hc] at hall
        exact .inl (hall s (List.mem_cons_self ..) ▸ List.mem_cons_self ..)

theorem overall_perm (h : checks.Perm checks') : overall ⟨checks⟩ = overall ⟨checks'⟩ :=
  ((worst_overall checks).perm (h.map _)).unique (worst_overall checks')

theorem overall_eq_unhealthy : overall ⟨checks⟩ = .unhealthy ↔ ∃ c ∈ checks, c.2.status = .unhealthy := by
  have hmem : .unhealthy ∈ statuses checks ↔ ∃ c ∈ checks, c.2.status = .unhealthy := List.mem_map
  rw [overall_eq, ← hmem]
  split
  · next h => simp [h]
  · next h => split <;> simp [h]

theorem overall_le_cons (c : String × ServiceHealth) (checks : List (String × ServiceHealth)) :
    overall ⟨checks⟩ ≤ overall ⟨c :: checks⟩ := by
  rcases (worst_overall checks).mem with h | ⟨-, h⟩
  · exact (worst_overall (c :: checks)).le _ (List.mem_cons_of_mem _ h)
  · rw [h]
    exact healthy_le _

end HealthReport

namespace ServiceHealth

/-- The members of a finding that may be left out. -/
def optionalMembers (ms : Option Nat) (error : Option String) : List (String × Json) :=
  (ms.toList.map fun n => ("response_time_ms", .integer n)) ++ error.toList.map fun e => ("error", .text e)

/-- Which of them there are is told by their names. -/
theorem optionalMembers_injective {ms ms' : Option Nat} {error error' : Option String}
    (h : optionalMembers ms error = optionalMembers ms' error') : ms = ms' ∧ error = error' := by
  have hms (ms : Option Nat) (error : Option String) :
      (optionalMembers ms error).lookup "response_time_ms" = ms.map fun n => .integer n := by
    cases ms <;> cases error <;> rfl
  have herror (ms : Option Nat) (error : Option String) :
      (optionalMembers ms error).lookup "error" = error.map .text := by
    cases ms <;> cases error <;> rfl
  have hm := congrArg (List.lookup "response_time_ms") h
  have he := congrArg (List.lookup "error") h
  rw [hms, hms] at hm
  rw [herror, herror] at he
  exact ⟨(Option.map_inj_right fun _ _ h => Int.ofNat.inj (Json.integer.inj h)).1 hm,
    (Option.map_inj_right fun _ _ h => Json.text.inj h).1 he⟩

/-- A finding can be told from how it is written. -/
theorem toJson_injective {g h : ServiceHealth} (e : g.toJson = h.toJson) : g = h := by
  obtain ⟨s, ms, error⟩ := g
  obtain ⟨s', ms', error'⟩ := h
  obtain ⟨hstatus, hrest⟩ := List.cons.inj (Json.object.inj e)
  obtain rfl : s = s' := HealthStatus.name_injective (Json.text.inj (Prod.mk.inj hstatus).2)
  obtain ⟨rfl, rfl⟩ := optionalMembers_injective hrest
  rfl

end ServiceHealth

namespace Health

variable {limit : Limit} {name : String} {r : Reply Failure Unit} {w : World} {h : ServiceHealth}

/-! ## Probes -/

/-- What a probe finds: the service answers in the time of a call, or later, or says that it failed, or does not
answer at all. -/
inductive Finds (limit : Limit) (name : String) (r : Reply Failure Unit) : ServiceHealth → Prop
  | prompt : r.answer = .ok () → r.delay * 1000 ≤ limit.micros → Finds limit name r (.healthy r.delay)
  | late : r.answer = .ok () → limit.micros < r.delay * 1000 → r.delay ≤ (twice limit).expiry →
    Finds limit name r (.degraded r.delay)
  | failed {cause : Failure} : r.answer = .error cause → r.delay ≤ (twice limit).expiry →
    Finds limit name r (.unhealthy cause.message)
  | silent : (twice limit).expiry < r.delay →
    Finds limit name r (.unhealthy (Failure.timedOut name (twice limit)).message)

/-- What comes in the time of a call comes in twice that time. -/
theorem le_expiry_twice {ms : Nat} (h : ms * 1000 ≤ limit.micros) : ms ≤ (twice limit).expiry := by
  simp only [twice, Limit.expiry]
  omega

theorem probe_finds (limit : Limit) (name : String) (r : Reply Failure Unit) :
    Finds limit name r (probe limit name r).1 := by
  unfold probe Reply.within
  by_cases hd : r.delay ≤ (twice limit).expiry
  · simp only [hd, if_true]
    cases ha : r.answer with
    | error cause => exact .failed ha hd
    | ok u =>
      dsimp only
      split
      · next hp => exact .prompt ha hp
      · next hp => exact .late ha (Nat.lt_of_not_le hp) hd
  · simp only [hd, if_false]
    exact .silent (Nat.lt_of_not_le hd)

/-- Nothing else is found than what there is to find. -/
theorem Finds.eq (f : Finds limit name r h) : (probe limit name r).1 = h := by
  unfold probe Reply.within
  cases f with
  | prompt ha hp => simp [ha, hp, le_expiry_twice hp]
  | late ha hp hd => simp [ha, hd, Nat.not_le.2 hp]
  | failed ha hd => simp [ha, hd]
  | silent hd =>
    simp only [Nat.not_le.2 hd, if_false]
    rfl

/-- A probe takes as long as the answer, but no longer than twice the time of a call. -/
theorem elapsed_probe_eq (limit : Limit) (name : String) (r : Reply Failure Unit) :
    (probe limit name r).2 = min r.delay (twice limit).expiry := by
  unfold probe Reply.within
  by_cases hd : r.delay ≤ (twice limit).expiry
  · simp only [hd, if_true, Nat.min_eq_left hd]
    cases r.answer <;> rfl
  · simp only [hd, if_false]
    exact (Nat.min_eq_right (Nat.le_of_lt (Nat.lt_of_not_le hd))).symm

/-- The service fails, or does not answer in twice the time of a call. -/
def IsDown (limit : Limit) (r : Reply Failure Unit) : Prop :=
  (∃ cause, r.answer = .error cause) ∨ (twice limit).expiry < r.delay

theorem Finds.unhealthy_iff (f : Finds limit name r h) : h.status = .unhealthy ↔ IsDown limit r := by
  cases f with
  | prompt ha hp => simp [IsDown, ha, ServiceHealth.healthy, le_expiry_twice hp]
  | late ha hp hd => simp [IsDown, ha, ServiceHealth.degraded, hd]
  | failed ha hd => simp [IsDown, ha, ServiceHealth.unhealthy]
  | silent hd => simp [IsDown, hd, ServiceHealth.unhealthy]

theorem Finds.degraded_iff (f : Finds limit name r h) : h.status = .degraded ↔
    r.answer = .ok () ∧ limit.micros < r.delay * 1000 ∧ r.delay ≤ (twice limit).expiry := by
  cases f with
  | prompt ha hp => simp [ha, ServiceHealth.healthy, Nat.not_lt.2 hp]
  | late ha hp hd => simp [ha, ServiceHealth.degraded, hp, hd]
  | failed ha hd => simp [ha, ServiceHealth.unhealthy]
  | silent hd => simp [ServiceHealth.unhealthy, hd]

theorem Finds.healthy_iff (f : Finds limit name r h) : h.status = .healthy ↔
    r.answer = .ok () ∧ r.delay * 1000 ≤ limit.micros := by
  cases f with
  | prompt ha hp => simp [ha, ServiceHealth.healthy, hp]
  | late ha hp hd => simp [ha, ServiceHealth.degraded, hp]
  | failed ha hd => simp [ha, ServiceHealth.unhealthy]
  | silent hd =>
    have hlate : limit.micros < r.delay * 1000 :=
      Nat.lt_of_not_le fun hp => Nat.not_lt.2 (le_expiry_twice hp) hd
    simp [ServiceHealth.unhealthy, hlate]

/-! ## The endpoint -/

/-- What there is to say about the services. -/
inductive Says (limit : Limit) (w : World) : String → ServiceHealth → Prop
  | database {h : ServiceHealth} : Finds limit "database" w.database h → Says limit w "database" h
  | cache {h : ServiceHealth} : Finds limit "cache_service" w.cache h → Says limit w "cache_service" h
  | connected : w.isConnected = true → Says limit w "message_broker" (.healthy 0)
  | disconnected : w.isConnected = false → Says limit w "message_broker" (.unhealthy "Connection lost")

/-- The report says it all, and nothing else. -/
theorem mem_checks : (name, h) ∈ (check limit w).1.checks ↔ Says limit w name h := by
  have hbroker : Says limit w "message_broker" (broker w.isConnected) := by
    cases hc : w.isConnected with
    | true => exact .connected hc
    | false => exact .disconnected hc
  constructor
  · intro hm
    simp only [check, List.mem_cons, Prod.mk.injEq, List.not_mem_nil, or_false] at hm
    rcases hm with ⟨rfl, rfl⟩ | ⟨rfl, rfl⟩ | ⟨rfl, rfl⟩
    · exact .database (probe_finds ..)
    · exact .cache (probe_finds ..)
    · exact hbroker
  · intro hs
    cases hs with
    | database f => simp [check, f.eq]
    | cache f => simp [check, f.eq]
    | connected hc => simp [check, broker, hc]
    | disconnected hc => simp [check, broker, hc]

theorem exists_unhealthy_iff : (∃ c ∈ (check limit w).1.checks, c.2.status = .unhealthy) ↔
    ∃ name h, Says limit w name h ∧ h.status = .unhealthy := by
  simp only [Prod.exists, mem_checks]

/-- What the endpoint says about the services. -/
structure Assessed (limit : Limit) (w : World) : Prop where
  /-- The report is about three services, and says of each what there is to say. -/
  told : (answer limit w "GET" "/health").2 = some (check limit w).1 ∧ (check limit w).1.checks.length = 3 ∧
    ∀ name h, (name, h) ∈ (check limit w).1.checks ↔ Says limit w name h
  /-- This service is unavailable if one that it depends on is unhealthy. -/
  unavailable : (answer limit w "GET" "/health").1.code = 503 ↔
    ∃ name h, Says limit w name h ∧ h.status = .unhealthy
  available : (answer limit w "GET" "/health").1.code = 200 ↔
    ∀ name h, Says limit w name h → h.status ≠ .unhealthy
  probed : ∀ name r h, Finds limit name r h ↔ (probe limit name r).1 = h
  /-- A service is unhealthy if it fails, or does not answer in twice the time of a call. -/
  unhealthy : ∀ name r, (probe limit name r).1.status = .unhealthy ↔
    (∃ cause, r.answer = .error cause) ∨ (twice limit).expiry < r.delay
  degraded : ∀ name r, (probe limit name r).1.status = .degraded ↔
    r.answer = .ok () ∧ limit.micros < r.delay * 1000 ∧ r.delay ≤ (twice limit).expiry
  healthy : ∀ name r, (probe limit name r).1.status = .healthy ↔
    r.answer = .ok () ∧ r.delay * 1000 ≤ limit.micros
  connected : (broker w.isConnected).status = if w.isConnected then .healthy else .unhealthy
  /-- The probes go on side by side. -/
  elapsed : (check limit w).2 =
    max (min w.database.delay (twice limit).expiry) (min w.cache.delay (twice limit).expiry)
  inTime : (check limit w).2 ≤ (twice limit).expiry
  /-- The times of a limit that is told in milliseconds. -/
  millis : ∀ ms, limit = .ofMillis ms →
    (twice limit).expiry = 2 * ms ∧ ∀ n, n * 1000 ≤ limit.micros ↔ n ≤ ms

theorem assessed (limit : Limit) (w : World) : Assessed limit w where
  told := ⟨rfl, rfl, fun _ _ => mem_checks⟩
  unavailable := by
    show (status (check limit w).1).code = 503 ↔ _
    rw [← exists_unhealthy_iff, ← HealthReport.overall_eq_unhealthy, status]
    split
    · next h => exact ⟨fun _ => h, fun _ => rfl⟩
    · next h => exact ⟨nofun, fun h' => absurd h' h⟩
  available := by
    show (status (check limit w).1).code = 200 ↔ _
    have hnone : (∀ name h, Says limit w name h → h.status ≠ .unhealthy) ↔
        (check limit w).1.overall ≠ .unhealthy := by
      rw [Ne, HealthReport.overall_eq_unhealthy, exists_unhealthy_iff]
      simp
    rw [hnone, status]
    split
    · next h => exact ⟨nofun, fun h' => absurd h h'⟩
    · next h => exact ⟨fun _ => h, fun _ => rfl⟩
  probed name r _ := ⟨Finds.eq, fun e => e ▸ probe_finds limit name r⟩
  unhealthy name r := (probe_finds limit name r).unhealthy_iff
  degraded name r := (probe_finds limit name r).degraded_iff
  healthy name r := (probe_finds limit name r).healthy_iff
  connected := by cases w.isConnected <;> rfl
  elapsed := by
    show max (probe limit _ w.database).2 (probe limit _ w.cache).2 = _
    rw [elapsed_probe_eq, elapsed_probe_eq]
  inTime := elapsed_check limit w
  millis ms h := by
    subst h
    simp only [twice, Limit.expiry, Limit.ofMillis]
    exact ⟨by omega, fun n => by omega⟩

/-- What is made of findings. -/
structure Summed (checks : List (String × ServiceHealth)) : Prop where
  worst : HealthStatus.Worst (HealthReport.statuses checks) (HealthReport.overall ⟨checks⟩)
  /-- It does not matter in which order the findings come. -/
  ordered : ∀ checks', checks.Perm checks' → HealthReport.overall ⟨checks'⟩ = HealthReport.overall ⟨checks⟩
  /-- One more finding makes nothing better. -/
  added : ∀ c, HealthReport.overall ⟨checks⟩ ≤ HealthReport.overall ⟨c :: checks⟩
  /-- Every finding is written down under its name, and nothing else is. -/
  kept : ∀ timestamp, ∃ written, HealthReport.toJson timestamp ⟨checks⟩ =
      .object [("status", .text (HealthReport.overall ⟨checks⟩).name), ("timestamp", .text timestamp),
        ("checks", .object written)] ∧
    written.length = checks.length ∧ ∀ name h, (name, h.toJson) ∈ written ↔ (name, h) ∈ checks

theorem summed (checks : List (String × ServiceHealth)) : Summed checks where
  worst := HealthReport.worst_overall checks
  ordered _ h := (HealthReport.overall_perm h).symm
  added c := HealthReport.overall_le_cons c checks
  kept timestamp := by
    refine ⟨checks.map fun c => (c.1, c.2.toJson), rfl, List.length_map .., fun name h => ?_⟩
    rw [List.mem_map]
    constructor
    · rintro ⟨⟨name', h'⟩, hc, he⟩
      obtain ⟨rfl, hj⟩ := Prod.mk.inj he
      exact ServiceHealth.toJson_injective hj ▸ hc
    · exact fun hc => ⟨_, hc, rfl⟩

/-- The endpoint says that the service is unavailable just if one that it depends on is unhealthy: the broker cannot be
reached, or a probe fails or takes more than twice the time of a call. That is known within this time. Whatever the
findings, the worst one decides, and all of them are told. -/
theorem health_exact (limit : Limit) (w : World) (checks : List (String × ServiceHealth)) :
    Assessed limit w ∧ Summed checks := ⟨assessed limit w, summed checks⟩

/-- The database is slow, and the cache does not answer in time. -/
def ailing : World where
  database := ⟨150, .ok ()⟩
  cache := ⟨1000, .ok ()⟩
  isConnected := true

theorem health_exact_ailing : (answer (.ofMillis 100) ailing "GET" "/health").1.code = 503 ∧
    (probe (.ofMillis 100) "database" ailing.database).1.status = .degraded ∧
    (check (.ofMillis 100) ailing).2 = 200 ∧
    HealthReport.overall ⟨[("database", .degraded 150)]⟩ ≤
      HealthReport.overall ⟨[("message_broker", .healthy 0), ("database", .degraded 150)]⟩ := by
  obtain ⟨h, hsum⟩ := health_exact (.ofMillis 100) ailing [("database", .degraded 150)]
  have hcache := (h.unhealthy "cache_service" ailing.cache).2 (.inr (by decide))
  have hsaid := Says.cache (w := ailing) ((h.probed "cache_service" ailing.cache _).2 rfl)
  refine ⟨h.unavailable.2 ⟨_, _, hsaid, hcache⟩, (h.degraded "database" ailing.database).2 ⟨rfl, by decide⟩, ?_,
    hsum.added ("message_broker", .healthy 0)⟩
  rw [h.elapsed]
  decide

end Health

end Herald
