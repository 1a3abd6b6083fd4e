import Herald.Configuration.Dotenv
import Herald.Delivery
import Herald.Pool
import Herald.Recommendation.Schedule

/-!
# The launch

What a configuration is made into when the service starts: the two pools, a sink for each delivery
worker, the ticker of the recommendations, and spans of time. The runtime breaks down where it is asked
for what it cannot make: a channel without places or with too many of them, a ticker whose ticks are no
time apart, a time that its clock cannot tell, a span of more seconds than it can count.

* `Span.toNanos_times`, `times_eq_error`: multiples of a span are exact or too long.
* `openChannel_max`: a channel that is to have at least one place breaks down at too many places only.
* `startPools`, `startSchedule`: what is started.

Here is what `start` of the worker pools, `spawn` of the sinks and `run` of the scheduler ask of the
runtime, and the durations `room_cooldown`, `room_invite_cooldown`, `call_timeout` and
`recommendation_interval`.
-/

namespace Herald

namespace Launch

/-- What the runtime breaks down at. -/
inductive Breakdown where
  /-- A channel without places. -/
  | noPlace
  /-- A channel with more places than can be counted. -/
  | tooManyPlaces
  /-- A ticker whose ticks are no time apart. -/
  | emptyPeriod
  /-- A time later than the clock can tell. -/
  | clockOverflow
  /-- A span of more seconds than can be counted. -/
  | spanOverflow
deriving DecidableEq, Repr

/-! ## Time -/

/-- The nanoseconds of a second. -/
def second : Nat := 1000000000

/-- A span of time: whole seconds, and nanoseconds besides. -/
structure Span where
  seconds : UInt64
  nanos : Nat
  nanos_lt : nanos < second

namespace Span

/-- A span of whole seconds. -/
def ofSeconds (n : UInt64) : Span := ⟨n, 0, by decide⟩

/-- A span of whole milliseconds. -/
def ofMillis (n : UInt64) : Span :=
  ⟨n / 1000, n.toNat % 1000 * 1000000, by unfold second; omega⟩

/-- A span in nanoseconds. -/
def toNanos (s : Span) : Nat := s.seconds.toNat * second + s.nanos

/-- A multiple of a span. -/
def times (s : Span) (k : Nat) : Except Breakdown Span :=
  let seconds := s.seconds.toNat * k + s.nanos * k / second
  if seconds < twoPow 64 then
    .ok ⟨UInt64.ofNat seconds, s.nanos * k % second, Nat.mod_lt _ (by decide)⟩
  else .error .spanOverflow

theorem toNanos_ofSeconds (n : UInt64) : (ofSeconds n).toNanos = n.toNat * second := Nat.add_zero _

theorem toNanos_ofMillis (n : UInt64) : (ofMillis n).toNanos = n.toNat * 1000000 := by
  show (n / 1000).toNat * second + n.toNat % 1000 * 1000000 = n.toNat * 1000000
  have hdiv : (n / 1000).toNat = n.toNat / 1000 := rfl
  rw [hdiv, second]
  omega

variable {s t : Span} {k : Nat}

theorem toNanos_mul (s : Span) (k : Nat) :
    s.toNanos * k = (s.seconds.toNat * k + s.nanos * k / second) * second + s.nanos * k % second := by
  rw [toNanos, Nat.add_mul, Nat.add_mul, Nat.mul_right_comm, Nat.add_assoc, Nat.div_add_mod']

/-- A multiple is exact. -/
theorem toNanos_times (h : s.times k = .ok t) : t.toNanos = s.toNanos * k := by
  simp only [times] at h
  split at h
  · next hlt =>
    cases h
    rw [toNanos_mul, toNanos, UInt64.toNat_ofNat_of_lt' hlt]
  · cases h

/-- There is no multiple just if it has too many seconds. -/
theorem times_eq_error : (∃ e, s.times k = .error e) ↔ twoPow 64 * second ≤ s.toNanos * k := by
  have hmod : s.nanos * k % second < second := Nat.mod_lt _ (by decide)
  have hpos : 0 < second := by decide
  rw [toNanos_mul, ← Nat.le_div_iff_mul_le hpos, Nat.add_comm, Nat.add_mul_div_right _ _ hpos,
    Nat.div_eq_of_lt hmod, Nat.zero_add]
  simp only [times]
  split
  · next hlt => simp [hlt]
  · next hlt => simpa using hlt

end Span

/-- A clock, in nanoseconds: the time now, and the latest time that it can tell. -/
structure Clock where
  now : Nat
  latest : Nat
  now_le : now ≤ latest

/-- The time when a span has passed. -/
def Clock.after (clock : Clock) (s : Span) : Except Breakdown Nat :=
  if clock.now + s.toNanos ≤ clock.latest then .ok (clock.now + s.toNanos) else .error .clockOverflow

/-- A ticker that starts now; its times are milliseconds since then. -/
def startTicker (clock : Clock) (every : Span) : Except Breakdown Recommendation.Ticker := do
  let _ ← clock.after every
  if every.toNanos = 0 then .error .emptyPeriod
  else pure ⟨every.toNanos / 1000000, every.toNanos / 1000000⟩

/-- A ticker starts just if its ticks are some time apart and the clock can tell its first one. -/
theorem startTicker_eq (clock : Clock) (every : Span) : startTicker clock every =
    if every.toNanos = 0 then .error .emptyPeriod
    else if clock.now + every.toNanos ≤ clock.latest then
      .ok ⟨every.toNanos / 1000000, every.toNanos / 1000000⟩
    else .error .clockOverflow := by
  have hnow := clock.now_le
  unfold startTicker Clock.after
  by_cases hzero : every.toNanos = 0
  · have hle : clock.now + every.toNanos ≤ clock.latest := by omega
    simp only [if_pos hzero, if_pos hle]
    rfl
  · simp only [if_neg hzero]
    split <;> rfl

/-! ## Channels -/

variable {α β : Type}

/-- How many places a channel may have. -/
def maxPlaces : Nat := twoPow 61 - 1

/-- A channel with so many places. -/
def openChannel (places : Nat) : Except Breakdown (Channel α) :=
  if places = 0 then .error .noPlace
  else if maxPlaces < places then .error .tooManyPlaces
  else .ok (.create places)

theorem openChannel_max (capacity : Nat) : openChannel (α := α) (max capacity 1) =
    if capacity ≤ maxPlaces then .ok (.create capacity) else .error .tooManyPlaces := by
  have hone : 1 ≤ maxPlaces := by decide
  have hcreate : Channel.create (α := α) (max capacity 1) = .create capacity := by
    simp [Channel.create]
  rw [openChannel, if_neg (by omega), hcreate]
  by_cases h : capacity ≤ maxPlaces
  · rw [if_pos h, if_neg (by omega)]
  · rw [if_neg h, if_pos (by omega)]

/-- The sink of a worker, whose queue has `capacity` places, but at least one. -/
def startSink (capacity : Nat) : Except Breakdown Cleanup.Sink := do
  pure { queue := ← openChannel (max capacity 1) }

theorem startSink_eq (capacity : Nat) : startSink capacity =
    if capacity ≤ maxPlaces then .ok (.create capacity) else .error .tooManyPlaces := by
  rw [startSink, openChannel_max]
  split <;> rfl

/-- What each of some workers is given. -/
def equip (make : Except Breakdown β) : Nat → Except Breakdown (List β)
  | 0 => .ok []
  | n + 1 => do
    let b ← make
    return b :: (← equip make n)

theorem equip_ok (b : β) (n : Nat) : equip (.ok b) n = .ok (List.replicate n b) := by
  induction n with
  | zero => rfl
  | succ n ih =>
    rw [equip, ih]
    rfl

theorem equip_error (e : Breakdown) (n : Nat) :
    equip (.error e : Except Breakdown β) n = if n = 0 then .ok [] else .error e := by
  cases n <;> rfl

/-- A pool of `size` workers whose intake has `capacity` places, but at least one, with what its workers
are given. -/
def startPool (J : Type) (size capacity : Nat) (make : Except Breakdown β) :
    Except Breakdown (Pool.State J × List β) := do
  let intake ← openChannel (max capacity 1)
  let registry : Channel Nat ← openChannel (max size 1)
  let given ← equip make size
  return ({ intake, registry := registry.items, workers := List.replicate size .deciding }, given)

/-- The pool is the one of that size and capacity, unless one of its channels has too many places. -/
theorem startPool_eq (J : Type) (size capacity : Nat) (make : Except Breakdown β) :
    startPool J size capacity make =
      if capacity ≤ maxPlaces ∧ size ≤ maxPlaces then
        (equip make size).map fun given => (.create size capacity, given)
      else .error .tooManyPlaces := by
  unfold startPool
  rw [openChannel_max, openChannel_max]
  by_cases hcapacity : capacity ≤ maxPlaces
  · by_cases hsize : size ≤ maxPlaces
    · simp only [hcapacity, hsize, and_self, if_true]
      cases equip make size <;> rfl
    · simp only [hcapacity, hsize, and_false, if_true, if_false]
      rfl
  · simp only [hcapacity, false_and, if_false]
    rfl

end Launch

open Launch

/-! ## What a configuration is made into -/

namespace Configuration

/-- Someone gave the pairs, or the configuration was found in the environment and a file. -/
inductive Accepted : Configuration → Prop
  | given {pairs : List (String × String)} {c : Configuration} : ofPairs .given pairs = .ok c → Accepted c
  | found {e : Environment} {file : Option String} {c : Configuration} : find e file = .ok (.ok c) → Accepted c

/-- How long the cooldown of a room lasts. -/
def roomCooldown (c : Configuration) : Span := .ofSeconds (c.get .roomCooldownSeconds)

/-- How long the cooldown of invitations to a room lasts. -/
def roomInviteCooldown (c : Configuration) : Span := .ofSeconds (c.get .roomInviteCooldownSeconds)

/-- How long a call may take. -/
def callTimeout (c : Configuration) : Span := .ofMillis (c.get .externalCallTimeoutMs)

/-- How long a probe of a dependency may take. -/
def probeTimeout (c : Configuration) : Except Breakdown Span := c.callTimeout.times 2

/-- How far rounds of recommendations are apart. -/
def recommendationPeriod (c : Configuration) : Span := .ofSeconds (c.get .recommendationIntervalSeconds)

end Configuration

namespace Launch

/-- What works in the service. -/
structure Pools where
  delivery : Pool.State Delivery.Job
  /-- The sinks of the delivery workers. -/
  sinks : List Cleanup.Sink
  recommendations : Pool.State UserId

/-- The pools and sinks of a configuration. -/
def startPools (c : Configuration) : Except Breakdown Pools := do
  let (delivery, sinks) ←
    startPool Delivery.Job c.workerPoolSize c.jobQueueCapacity (startSink c.unregisteredSinkCapacity)
  let (recommendations, _) ← startPool UserId c.recommendationPoolSize c.jobQueueCapacity (.ok ())
  return { delivery, sinks, recommendations }

/-- The ticker of the recommendations. -/
def startSchedule (clock : Clock) (c : Configuration) : Except Breakdown Recommendation.Ticker :=
  startTicker clock c.recommendationPeriod

end Launch

end Herald
