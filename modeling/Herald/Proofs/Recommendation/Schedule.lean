import Herald.Recommendation.Schedule
import Mathlib.Data.List.Chain

/-!
# Rounds in time

A ticker whose period is longer than its tolerance is always due at the first multiple of the period
after its last tick, however late that tick came. So a round decides by its start and its end alone
when the next one starts, and what became of it makes no difference.

* `Ticker.due_tick`: when the next tick is due.
* `round_jobs`: a round submits the first part of its users.
* `Course.start_eq`: when the rounds of a course start.
* `rounds_in_time`: what holds of every course of a schedule.
* `runs_run`: `run` is one of them.
-/

namespace Herald.Recommendation

variable {limit : Limit} {world : Nat → RoundWorld} {w : RoundWorld} {stop : Option Nat}
  {every number now time due k : Nat} {t : Ticker} {r r' : Round} {rounds : List Round} {ending : Option Nat}

/-! ## Tickers -/

namespace Ticker

@[simp] theorem every_tick (t : Ticker) (now : Nat) : (t.tick now).every = t.every := by
  unfold tick
  split <;> rfl

/-- Ticks are at least one period apart. -/
theorem le_due_tick (t : Ticker) (now : Nat) : t.due + t.every ≤ (t.tick now).due := by
  unfold tick
  split
  · exact Nat.le_refl _
  · have hle := Nat.mod_le (now - t.due) t.every
    dsimp only
    omega

/-- A tick that comes late or in time, but not before it is due, is followed by the first multiple of the
period after it. -/
theorem due_tick (htolerance : tolerance < t.every) (hdvd : t.every ∣ t.due) (hle : t.due ≤ now) :
    (t.tick now).due = (now / t.every + 1) * t.every := by
  obtain ⟨q, hq⟩ := hdvd
  have hpos : 0 < t.every := Nat.zero_lt_of_lt htolerance
  unfold tick
  split
  · next hnow =>
    have hdiv : now / t.every = q := by
      rw [Nat.div_eq_iff hpos, Nat.mul_comm, ← hq]
      omega
    rw [hdiv, Nat.add_mul, Nat.one_mul, Nat.mul_comm, ← hq]
  · have hmod : (now - t.due) % t.every = now % t.every := by
      rw [hq, Nat.sub_mul_mod (hq ▸ hle)]
    have hsum := Nat.div_add_mod now t.every
    have hlt := Nat.mod_lt now hpos
    dsimp only
    rw [hmod, Nat.add_mul, Nat.one_mul, Nat.mul_comm (now / t.every)]
    omega

theorem dvd_due_tick (htolerance : tolerance < t.every) (hdvd : t.every ∣ t.due) (hle : t.due ≤ now) :
    t.every ∣ (t.tick now).due := by
  rw [due_tick htolerance hdvd hle]
  exact Nat.dvd_mul_left ..

end Ticker

/-! ## Rounds -/

theorem le_submitAll (intake : Nat → Intake) (position now : Nat) (users : List UserId) :
    now ≤ (submitAll intake position now users).2.1 := by
  induction users generalizing position now with
  | nil => exact Nat.le_refl _
  | cons user users ih =>
    rw [submitAll]
    dsimp only
    split
    · exact Nat.le_trans (Nat.le_add_right ..) (ih ..)
    · exact Nat.le_add_right ..

/-- Jobs are submitted for users in order as long as the intake is open, and for all of them unless it is found
closed. -/
theorem submitAll_cases (intake : Nat → Intake) (position now : Nat) (users : List UserId) :
    let s := submitAll intake position now users
    (∀ k < s.1.length, (intake (position + k)).isOpen = true) ∧
      (s.1.map (·.2) = users ∧ s.2.2 = none ∨
        (∃ user rest, users = s.1.map (·.2) ++ user :: rest) ∧
          (intake (position + s.1.length)).isOpen = false ∧ s.2.2 = some .notRunning) := by
  induction users generalizing position now with
  | nil => exact ⟨nofun, .inl ⟨rfl, rfl⟩⟩
  | cons user users ih =>
    dsimp only
    rw [submitAll]
    dsimp only
    split
    · next hopen =>
      obtain ⟨hbefore, hcases⟩ := ih (position + 1) (now + (intake position).delay)
      rw [Nat.add_right_comm] at hcases
      refine ⟨fun k hk => ?_, ?_⟩
      · cases k with
        | zero => exact hopen
        | succ k =>
          rw [Nat.add_comm k, ← Nat.add_assoc]
          exact hbefore k (Nat.lt_of_succ_lt_succ hk)
      · rcases hcases with ⟨hjobs, hnone⟩ | ⟨⟨u, rest, hrest⟩, hclosed, hsome⟩
        · exact .inl ⟨congrArg (user :: ·) hjobs, hnone⟩
        · exact .inr ⟨⟨u, rest, congrArg (user :: ·) hrest⟩, hclosed, hsome⟩
    · next hclosed => exact ⟨nofun, .inr ⟨⟨user, users, rfl⟩, by simpa using hclosed, rfl⟩⟩

/-- No job of a round is accepted before the one in front of it. -/
theorem submitAll_sorted (intake : Nat → Intake) (position now : Nat) (users : List UserId) :
    (∀ job ∈ (submitAll intake position now users).1, now ≤ job.1) ∧
      (submitAll intake position now users).1.Pairwise (·.1 ≤ ·.1) := by
  induction users generalizing position now with
  | nil => exact ⟨nofun, .nil⟩
  | cons user users ih =>
    rw [submitAll]
    dsimp only
    split
    · obtain ⟨hle, hpairwise⟩ := ih (position + 1) (now + (intake position).delay)
      refine ⟨List.forall_mem_cons.2 ⟨Nat.le_add_right .., fun job h => ?_⟩, .cons hle hpairwise⟩
      exact Nat.le_trans (Nat.le_add_right ..) (hle job h)
    · exact ⟨nofun, .nil⟩

@[simp] theorem start_round (limit : Limit) (w : RoundWorld) (now : Nat) : (round limit w now).start = now := by
  unfold round
  dsimp only
  split <;> rfl

theorem le_finish_round (limit : Limit) (w : RoundWorld) (now : Nat) : now ≤ (round limit w now).finish := by
  unfold round
  dsimp only
  split
  · exact Nat.le_add_right ..
  · exact Nat.le_trans (Nat.le_add_right ..) (le_submitAll ..)

/-- What the lookup of candidates comes to in a round. -/
def RoundWorld.lookup (limit : Limit) (w : RoundWorld) : Except Failure (List UserId) :=
  (w.candidates.within limit candidatesName).answer

theorem round_of_error {cause : Failure} (h : w.lookup limit = .error cause) :
    (round limit w now).jobs = [] ∧ (round limit w now).result = .error (.lookup cause) := by
  simp only [RoundWorld.lookup] at h
  simp only [round, h, and_self]

/-- What a round does with its users: it submits a job for each of them, or it reports that one was refused. -/
theorem round_of_ok {users : List UserId} (now : Nat) (h : w.lookup limit = .ok users) :
    (∀ k < (round limit w now).jobs.length, (w.intake k).isOpen = true) ∧
      ((round limit w now).jobs.map (·.2) = users ∧ (round limit w now).result = .ok users.length ∨
        (∃ user rest, users = (round limit w now).jobs.map (·.2) ++ user :: rest) ∧
          (w.intake (round limit w now).jobs.length).isOpen = false ∧
          (round limit w now).result = .error .notRunning) := by
  simp only [RoundWorld.lookup] at h
  simp only [round, h]
  have hcases := submitAll_cases w.intake 0 (now + (w.candidates.within limit candidatesName).delay) users
  simp only [Nat.zero_add] at hcases
  refine hcases.imp_right fun hcases => ?_
  rcases hcases with ⟨hjobs, hnone⟩ | ⟨hrest, hclosed, hsome⟩
  · refine .inl ⟨hjobs, ?_⟩
    rw [hnone]
    dsimp only
    rw [← congrArg List.length hjobs, List.length_map]
  · refine .inr ⟨hrest, hclosed, ?_⟩
    rw [hsome]

theorem jobs_sorted (limit : Limit) (w : RoundWorld) (now : Nat) :
    (round limit w now).jobs.Pairwise (·.1 ≤ ·.1) := by
  unfold round
  dsimp only
  split
  · exact .nil
  · exact (submitAll_sorted ..).2

/-! ## Courses -/

/-- The first multiple of the period after the start of a round. -/
def Round.next (every : Nat) (r : Round) : Nat := (r.start / every + 1) * every

/-- Since when a schedule has been waiting that began to wait at `now`, before these rounds. -/
def waitingSince (now : Nat) (rounds : List Round) : Nat := rounds.getLast?.elim now Round.finish

/-- When the next round is to start after these rounds, if the first one of them was due at `due`. -/
def nextStart (every now due : Nat) (rounds : List Round) : Nat :=
  rounds.getLast?.elim (max now due) fun r => max r.finish (r.next every)

namespace Course

/-- A ticker that ticks at multiples of its period, which is longer than what counts as late. -/
structure Regular (every : Nat) (t : Ticker) : Prop where
  every_eq : t.every = every
  tolerance_lt : Ticker.tolerance < every
  dvd_due : every ∣ t.due

theorem Regular.tick (h : Regular every t) (now : Nat) : Regular every (t.tick (max now t.due)) := by
  obtain ⟨rfl, htolerance, hdvd⟩ := h
  exact ⟨Ticker.every_tick .., htolerance, Ticker.dvd_due_tick htolerance hdvd (Nat.le_max_right ..)⟩

theorem Regular.due_tick (h : Regular every t) (limit : Limit) (w : RoundWorld) (now : Nat) :
    (t.tick (max now t.due)).due = (round limit w (max now t.due)).next every := by
  obtain ⟨rfl, htolerance, hdvd⟩ := h
  rw [Ticker.due_tick htolerance hdvd (Nat.le_max_right ..), Round.next, start_round]

theorem waitingSince_cons : waitingSince now (r :: rounds) = waitingSince r.finish rounds := by
  cases rounds <;> simp [waitingSince, List.getLast?_cons]

theorem nextStart_cons (h : due = r.next every) :
    nextStart every now t.due (r :: rounds) = nextStart every r.finish due rounds := by
  cases rounds <;> simp [nextStart, List.getLast?_cons, h]

/-- Every round is a whole one, in its own world. -/
theorem eq_round (h : Course limit world stop number t now rounds ending) (hr : rounds[k]? = some r) :
    r = round limit (world (number + k)) r.start := by
  induction h generalizing k with
  | watched => cases hr
  | ended => cases hr
  | ticked _ _ ih =>
    cases k with
    | zero =>
      cases hr
      rw [start_round, Nat.add_zero]
    | succ k =>
      rw [← Nat.succ_add_eq_add_succ]
      exact ih hr

theorem le_start (h : Course limit world stop number t now rounds ending) : ∀ r ∈ rounds, now ≤ r.start := by
  induction h with
  | watched => exact nofun
  | ended => exact nofun
  | @ticked number t now _ _ _ _ ih =>
    have hstart : now ≤ (round limit (world number) (max now t.due)).start := by
      rw [start_round]
      exact Nat.le_max_left ..
    refine List.forall_mem_cons.2 ⟨hstart, fun r hr => ?_⟩
    rw [start_round] at hstart
    exact Nat.le_trans hstart (Nat.le_trans (le_finish_round ..) (ih r hr))

/-- A round starts when the ones before it are over. -/
theorem pairwise (h : Course limit world stop number t now rounds ending) :
    rounds.Pairwise (·.finish ≤ ·.start) := by
  induction h with
  | watched => exact .nil
  | ended => exact .nil
  | ticked _ hrest ih => exact .cons hrest.le_start ih

/-- No round is under way while a schedule waits. -/
theorem le_waitingSince (h : Course limit world stop number t now rounds ending) :
    now ≤ waitingSince now rounds ∧ ∀ r ∈ rounds, r.finish ≤ waitingSince now rounds := by
  induction h with
  | watched => exact ⟨Nat.le_refl _, nofun⟩
  | ended => exact ⟨Nat.le_refl _, nofun⟩
  | @ticked number t now _ _ _ _ ih =>
    obtain ⟨hfinish, hrest⟩ := ih
    have hnow := Nat.le_trans (Nat.le_max_left now t.due) (le_finish_round limit (world number) _)
    rw [waitingSince_cons]
    exact ⟨Nat.le_trans hnow hfinish, List.forall_mem_cons.2 ⟨hfinish, hrest⟩⟩

/-- Whatever the period, rounds are at least so many periods apart from the first tick. -/
theorem due_le (h : Course limit world stop number t now rounds ending) (hr : rounds[k]? = some r) :
    t.due + k * t.every ≤ r.start := by
  induction h generalizing k with
  | watched => cases hr
  | ended => cases hr
  | @ticked number t now _ _ _ _ ih =>
    cases k with
    | zero =>
      cases hr
      rw [start_round, Nat.zero_mul, Nat.add_zero]
      exact Nat.le_max_right ..
    | succ k =>
      have hstart := ih hr
      have htick := t.le_due_tick (max now t.due)
      rw [Ticker.every_tick] at hstart
      rw [Nat.add_mul]
      omega

/-- When a round starts is told by the rounds before it. -/
theorem start_eq (h : Course limit world stop number t now rounds ending) (ht : Regular every t)
    (hr : rounds[k]? = some r) : r.start = nextStart every now t.due (rounds.take k) := by
  induction h generalizing k with
  | watched => cases hr
  | ended => cases hr
  | @ticked number t now _ _ _ _ ih =>
    cases k with
    | zero =>
      cases hr
      exact start_round ..
    | succ k =>
      rw [List.take_succ_cons, nextStart_cons (ht.due_tick limit (world number) now)]
      exact ih (ht.tick now) hr

/-- A schedule ends as soon as it is asked to and no round is under way, and only if it was asked to. -/
theorem ending_eq (h : Course limit world stop number t now rounds ending) (ht : Regular every t)
    (hending : ending = some time) : ∃ asked, stop = some asked ∧ time = max (waitingSince now rounds) asked ∧
      time ≤ nextStart every now t.due rounds := by
  induction h with
  | watched => cases hending
  | @ended _ t now asked hstop hle =>
    cases hending
    exact ⟨asked, hstop, rfl, hle⟩
  | @ticked number t now _ _ _ _ ih =>
    rw [waitingSince_cons, nextStart_cons (ht.due_tick limit (world number) now)]
    exact ih (ht.tick now) hending

/-- As long as it is not asked to end, a schedule goes on with the next round, whatever became of the rounds
before. -/
theorem go_on (h : Course limit world stop number t now rounds none) (ht : Regular every t)
    (hstop : ∀ asked, stop = some asked →
      nextStart every now t.due rounds ≤ max (waitingSince now rounds) asked) :
    Course limit world stop number t now
      (rounds ++ [round limit (world (number + rounds.length)) (nextStart every now t.due rounds)]) none := by
  generalize hn : (none : Option Nat) = ending at h
  induction h with
  | watched => exact .ticked hstop .watched
  | ended => cases hn
  | @ticked number t now rounds _ hle _ ih =>
    rw [waitingSince_cons, nextStart_cons (ht.due_tick limit (world number) now)] at hstop
    rw [nextStart_cons (ht.due_tick limit (world number) now), List.length_cons,
      ← Nat.succ_add_eq_add_succ]
    exact .ticked hle (ih (ht.tick now) hstop hn)

theorem finish (h : Course limit world stop number t now rounds none) (ht : Regular every t) {asked : Nat}
    (hasked : stop = some asked)
    (hle : max (waitingSince now rounds) asked ≤ nextStart every now t.due rounds) :
    Course limit world stop number t now rounds (some (max (waitingSince now rounds) asked)) := by
  generalize hn : (none : Option Nat) = ending at h
  induction h with
  | watched => exact .ended hasked hle
  | ended => cases hn
  | @ticked number t now rounds _ hstop _ ih =>
    rw [waitingSince_cons, nextStart_cons (ht.due_tick limit (world number) now)] at hle
    rw [waitingSince_cons]
    exact .ticked hstop (ih (ht.tick now) hle hn)

end Course

/-! ## Schedules -/

theorem Runs.course (h : Runs every limit world stop rounds ending) :
    0 < every ∧ Course limit world stop 0 ⟨every, every⟩ 0 rounds ending := by
  obtain ⟨t, ht, h⟩ := h
  rw [Ticker.start?, Nat.zero_add] at ht
  split at ht
  · cases ht
  · next hne =>
    cases ht
    exact ⟨Nat.pos_of_ne_zero hne, h⟩

theorem runs_iff (hpos : 0 < every) :
    Runs every limit world stop rounds ending ↔ Course limit world stop 0 ⟨every, every⟩ 0 rounds ending := by
  refine ⟨fun h => h.course.2, fun h => ⟨⟨every, every⟩, ?_, h⟩⟩
  rw [Ticker.start?, if_neg (Nat.ne_of_gt hpos), Nat.zero_add]

/-- The next tick is due at the first multiple of the period after the start of a round. -/
theorem Round.next_first (hpos : 0 < every) (r : Round) :
    every ∣ r.next every ∧ r.start < r.next every ∧ ∀ m, every ∣ m → r.start < m → r.next every ≤ m := by
  refine ⟨Nat.dvd_mul_left .., ?_, ?_⟩
  · rw [Round.next, Nat.mul_comm]
    exact Nat.lt_mul_div_succ r.start hpos
  · rintro m ⟨q, rfl⟩ hlt
    have hq : r.start / every < q := Nat.div_lt_of_lt_mul hlt
    rw [Round.next, Nat.mul_comm every q]
    exact Nat.mul_le_mul_right every hq

/-- So many rounds at least so far apart have started. -/
theorem countP_start_le (hpos : 0 < every)
    (h : ∀ k r, rounds[k]? = some r → (number + k + 1) * every ≤ r.start) :
    rounds.countP (·.start ≤ time) ≤ time / every - number := by
  induction rounds generalizing number with
  | nil => exact Nat.zero_le _
  | cons r rounds ih =>
    have hrest : rounds.countP (·.start ≤ time) ≤ time / every - (number + 1) := ih fun k r hr => by
      rw [Nat.add_right_comm number 1 k]
      exact h (k + 1) r hr
    rw [List.countP_cons]
    split
    · next hstart =>
      have hle : number + 1 ≤ time / every :=
        (Nat.le_div_iff_mul_le hpos).2 (Nat.le_trans (h 0 r rfl) (of_decide_eq_true hstart))
      omega
    · omega

/-- The rounds of a bounded number are all there are, if the period fits so often into the time. -/
theorem course_roundsFor {asked n : Nat} (h : asked ≤ t.due + n * t.every) :
    Course limit world (some asked) number t now (roundsFor limit world asked n number t now).1
      (some (roundsFor limit world asked n number t now).2) := by
  induction n generalizing number t now with
  | zero => exact .ended rfl (by omega)
  | succ n ih =>
    rw [roundsFor]
    dsimp only
    split
    · next hlt =>
      refine .ticked ?_ (ih ?_)
      · rintro _ ⟨⟩
        omega
      · have htick := t.le_due_tick (max now t.due)
        rw [Nat.add_mul] at h
        rw [Ticker.every_tick]
        omega
    · exact .ended rfl (by omega)

/-- What a schedule does that prefers its end to a tick is something that it may do. -/
theorem runs_run {asked : Nat} (h : run every limit world asked = some (rounds, time)) :
    Runs every limit world (some asked) rounds (some time) := by
  obtain ⟨t, ht, hrounds⟩ := Option.map_eq_some_iff.1 h
  refine ⟨t, ht, ?_⟩
  rw [Ticker.start?, Nat.zero_add] at ht
  split at ht
  · cases ht
  · next hne =>
    cases ht
    have henough : asked ≤ every + (asked / every + 1) * every := by
      have hlt := Nat.lt_mul_div_succ asked (Nat.pos_of_ne_zero hne)
      rw [Nat.mul_comm] at hlt
      omega
    have hcourse : Course limit world (some asked) 0 ⟨every, every⟩ 0
        (roundsFor limit world asked (asked / every + 1) 0 ⟨every, every⟩ 0).1
        (some (roundsFor limit world asked (asked / every + 1) 0 ⟨every, every⟩ 0).2) :=
      course_roundsFor henough
    rwa [hrounds] at hcourse

/-- What a round is that was not cut short: it does in its world whatever a round does that starts then. It
submits jobs for the users in front, of all its users if it succeeds, in their order; so it does at any
time while it is under way. If it fails, the lookup failed or overran, or the pool no longer took jobs when
the one of the first user left out was submitted, and not before. -/
structure Round.IsWhole (limit : Limit) (w : RoundWorld) (r : Round) : Prop where
  eq_round : r = round limit w r.start
  of_error : ∀ cause, w.lookup limit = .error cause → r.jobs = [] ∧ r.result = .error (.lookup cause)
  of_ok : ∀ users, w.lookup limit = .ok users →
    (∀ time, (r.jobs.filter (·.1 ≤ time)).map (·.2) <+: users) ∧ r.jobs.map (·.2) <+: users ∧
    (∀ k < r.jobs.length, (w.intake k).isOpen = true) ∧
    (r.result = .ok users.length ∧ r.jobs.map (·.2) = users ∨
      r.result = .error .notRunning ∧ r.jobs.length < users.length ∧
        (w.intake r.jobs.length).isOpen = false)

/-- What comes before a time stands in front, in a list that is sorted by times. -/
theorem filter_prefix_of_sorted {jobs : List (Nat × UserId)} (h : jobs.Pairwise (·.1 ≤ ·.1)) (time : Nat) :
    jobs.filter (·.1 ≤ time) <+: jobs := by
  induction h with
  | nil => exact List.prefix_rfl
  | @cons job jobs hle _ ih =>
    by_cases hjob : job.1 ≤ time
    · rw [List.filter_cons_of_pos (by simpa using hjob)]
      exact List.cons_prefix_cons.2 ⟨rfl, ih⟩
    · have hnone : (job :: jobs).filter (·.1 ≤ time) = [] := by
        refine List.filter_eq_nil_iff.2 (List.forall_mem_cons.2 ⟨by simpa using hjob, fun j hj => ?_⟩)
        have hj := hle j hj
        simp only [decide_eq_true_eq]
        omega
      rw [hnone]
      exact List.nil_prefix

theorem isWhole_round (h : r = round limit w r.start) : r.IsWhole limit w where
  eq_round := h
  of_error cause hcause := by
    rw [h]
    exact round_of_error hcause
  of_ok users husers := by
    have hsorted : r.jobs.Pairwise (·.1 ≤ ·.1) := h ▸ jobs_sorted limit w r.start
    have hearly (time : Nat) := (filter_prefix_of_sorted hsorted time).map (·.2)
    obtain ⟨hopen, hcases⟩ := round_of_ok r.start husers
    rw [← h] at hopen hcases
    rcases hcases with ⟨hjobs, hresult⟩ | ⟨⟨user, rest, hrest⟩, hclosed, hresult⟩
    · exact ⟨fun time => hjobs ▸ hearly time, hjobs ▸ List.prefix_rfl, hopen, .inl ⟨hresult, hjobs⟩⟩
    · have hprefix : r.jobs.map (·.2) <+: users := hrest ▸ List.prefix_append ..
      refine ⟨fun time => (hearly time).trans hprefix, hprefix, hopen, .inr ⟨hresult, ?_, hclosed⟩⟩
      rw [hrest, List.length_append, List.length_map]
      exact Nat.lt_add_of_pos_right (Nat.succ_pos _)

/-- Whatever the collaborators do and whenever it is asked to end, of the courses of a schedule all the
following holds, if its period is longer than what counts as late. Rounds never overlap. The round with `k`
rounds before it does not start within `k + 1` periods, so that at any time no more rounds have started than
there were periods. A round that is over by the first multiple of the period after its start is followed by
one that starts then; a round that takes longer is followed by one at once, which is the only late one: the
multiples missed are not made up. Rounds are whole, also one under way when the schedule is asked to end, and
it ends as soon as it was asked to and no round is under way. Until then it goes on with the next round,
whatever became of the rounds before. -/
theorem rounds_in_time (htolerance : Ticker.tolerance < every)
    (h : Runs every limit world stop rounds ending) :
    rounds.Pairwise (·.finish ≤ ·.start) ∧ (∀ r ∈ rounds, r.start ≤ r.finish) ∧
    (∀ k (r : Round), rounds[k]? = some r → (k + 1) * every ≤ r.start) ∧
    (∀ time, rounds.countP (·.start ≤ time) ≤ time / every) ∧
    (∀ r : Round, rounds[0]? = some r → r.start = every) ∧
    (∀ k (r r' : Round), rounds[k]? = some r → rounds[k + 1]? = some r' →
      (r.finish ≤ r.next every → r'.start = r.next every) ∧ (r.next every < r.finish → r'.start = r.finish)) ∧
    (∀ r ∈ rounds, every ∣ r.next every ∧ r.start < r.next every ∧
      ∀ m, every ∣ m → r.start < m → r.next every ≤ m) ∧
    (∀ k (r : Round), rounds[k]? = some r → r.IsWhole limit (world k)) ∧
    (∀ time, ending = some time → (∀ r ∈ rounds, r.finish ≤ time) ∧
      ∃ asked, stop = some asked ∧ time = max (waitingSince 0 rounds) asked ∧
        time ≤ nextStart every 0 every rounds) ∧
    (ending = none → (∀ asked, stop = some asked →
        nextStart every 0 every rounds ≤ max (waitingSince 0 rounds) asked) →
      Runs every limit world stop
        (rounds ++ [round limit (world rounds.length) (nextStart every 0 every rounds)]) none) := by
  obtain ⟨hpos, hcourse⟩ := h.course
  have hregular : Course.Regular every ⟨every, every⟩ := ⟨rfl, htolerance, Nat.dvd_refl every⟩
  have hwhole {k : Nat} {r : Round} (hr : rounds[k]? = some r) : r = round limit (world k) r.start := by
    have hround := hcourse.eq_round hr
    rwa [Nat.zero_add] at hround
  have hspan (r : Round) (hr : r ∈ rounds) : r.start ≤ r.finish := by
    obtain ⟨k, hk⟩ := List.mem_iff_getElem?.1 hr
    have hle := le_finish_round limit (world k) r.start
    rwa [← hwhole hk] at hle
  have hstart (k : Nat) (r : Round) (hr : rounds[k]? = some r) : (k + 1) * every ≤ r.start := by
    have hle := hcourse.due_le hr
    rw [Nat.add_mul]
    dsimp only at hle
    omega
  refine ⟨hcourse.pairwise, hspan, hstart, fun time => ?_, fun r hr => ?_, fun k r r' hr hr' => ?_,
    fun r _ => r.next_first hpos, fun k r hr => isWhole_round (hwhole hr), fun time hending => ?_,
    fun hending hgo => ?_⟩
  · exact countP_start_le hpos fun k r hr => by
      rw [Nat.zero_add]
      exact hstart k r hr
  · have hfirst := hcourse.start_eq hregular hr
    simpa [nextStart] using hfirst
  · have hnext : r'.start = max r.finish (r.next every) := by
      rw [hcourse.start_eq hregular hr', List.take_add_one, hr]
      simp [nextStart]
    exact ⟨fun hle => hnext.trans (Nat.max_eq_right hle),
      fun hlt => hnext.trans (Nat.max_eq_left (Nat.le_of_lt hlt))⟩
  · obtain ⟨asked, hstop, htime, hnext⟩ := hcourse.ending_eq hregular hending
    refine ⟨fun r hr => ?_, asked, hstop, htime, hnext⟩
    rw [htime]
    exact Nat.le_trans (hcourse.le_waitingSince.2 r hr) (Nat.le_max_left ..)
  · subst hending
    have hon := hcourse.go_on hregular hgo
    rw [Nat.zero_add] at hon
    exact (runs_iff hpos).2 hon

/-- The first lookup takes long, all the others no time. -/
def slowFirst : Nat → RoundWorld
  | 0 => ⟨⟨560, .ok [1, 2]⟩, fun _ => ⟨0, true⟩⟩
  | _ => ⟨.now [3], fun _ => ⟨0, true⟩⟩

theorem rounds_in_time_overrun : ∃ rounds, Ticker.tolerance < 100 ∧
    Runs 100 (.ofMillis 5000) slowFirst (some 830) rounds (some 830) ∧
    rounds.map (·.start) = [100, 660, 700, 800] ∧ rounds.Pairwise (·.finish ≤ ·.start) ∧
    rounds.countP (·.start ≤ 700) ≤ 700 / 100 := by
  have hruns : Runs 100 (.ofMillis 5000) slowFirst (some 830) _ (some 830) := runs_run rfl
  have htolerance : Ticker.tolerance < 100 := by decide
  obtain ⟨hapart, -, -, hcount, -⟩ := rounds_in_time htolerance hruns
  exact ⟨_, htolerance, hruns, by decide, hapart, hcount 700⟩

end Herald.Recommendation
