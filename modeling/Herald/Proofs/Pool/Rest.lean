import Herald.Arithmetic
import Herald.Proofs.Pool.Backpressure
import Mathlib.Data.Option.Basic

/-!
# Pools come to rest

Left to itself a pool comes to rest: every move that it makes on its own, and every end of a job, takes
it closer to that, and it makes one as long as any is possible.

* `State.load`, `Step.load_lt`: how much a pool has before it, and that every move lessens it.
* `State.exists_step_of_next?`, `State.settled_of_next?`: the move that comes first is possible, and
  there is none only if none is.
* `State.Settled.idle`: what a pool is like at rest.
-/

namespace Herald.Pool

variable {J : Type} {s t : State J} {m : Move J}

open State

/-! ## How much is left -/

/-- How much a worker has before it; `cost` says how much a job brings when it starts. -/
def Phase.load (cost : J → Nat) : Phase J → Nat
  | deciding => 6
  | asking => 5
  | waiting none => 2
  | waiting (some job) => 9 + cost job
  | closed none => 1
  | closed (some job) => 8 + cost job
  | busy _ => 7
  | stopped | crashed _ => 0

def Dispatcher.load (cost : J → Nat) : Dispatcher J → Nat
  | receiving => 3
  | holding job => 10 + cost job
  | offering job _ => 11 + cost job
  | closing _ => 2
  | draining _ => 1
  | ended _ => 0

namespace State

/-- How much the jobs have before them that no worker was handed yet, and the slots. -/
def stockLoad (cost : J → Nat) (s : State J) : Nat :=
  total (s.intake.waiting.map (9 + cost ·.2)) + total (s.intake.items.map (8 + cost ·)) +
    2 * s.registry.length + s.dispatcher.load cost

/-- How much a pool has before it. -/
def load (cost : J → Nat) (s : State J) : Nat := s.stockLoad cost + total (s.workers.map (·.load cost))

end State

/-- Somebody outside acts on the pool. -/
def Move.isOutside : Move J → Bool
  | .submit _ | .stop | .abandon => true
  | _ => false

section

variable {cost : J → Nat}

/-- A worker comes from one phase into another. -/
theorem load_turn {i : Nat} {p q : Phase J} (h : s.workers[i]? = some p)
    (hw : t.workers = s.workers.set i q)
    (hl : t.stockLoad cost + q.load cost < s.stockLoad cost + p.load cost) :
    t.load cost < s.load cost := by
  have ht := total_map_set (·.load cost) h q
  unfold State.load
  rw [hw]
  omega

/-- No worker is concerned. -/
theorem load_others (hw : t.workers = s.workers) (hl : t.stockLoad cost < s.stockLoad cost) :
    t.load cost < s.load cost := by
  unfold State.load
  rw [hw]
  omega

end

section

attribute [local simp] stockLoad Phase.load Dispatcher.load total_append closeIntake

/-- Every move from within leaves less to do. -/
theorem Step.load_lt (cost : J → Nat) (h : Step s m t) (hm : m.isOutside = false) : t.load cost < s.load cost := by
  cases h with
  | accept | park | refuse | stop | abandon => cases hm
  | enter e =>
    obtain ⟨-, hi, before, after, hw, hw', -⟩ := Channel.enter?_cases e
    refine load_others rfl ?_
    simp only [stockLoad, intake_note, hi, hw, hw', List.map_append, total_append, List.map_cons,
      total_cons, List.map_nil, total_nil, registry_note, dispatcher_note]
    omega
  | goOn h | leave h | unheard h | forgotten h | findNone h | finish h | crash h =>
    exact load_turn h rfl (by simp)
  | start h | find h =>
    refine load_turn h rfl ?_
    simp
    omega
  | @withdraw i job h =>
    refine load_turn h rfl ?_
    cases job <;> simp
  | register h =>
    refine load_turn h rfl ?_
    simp
    omega
  | receive hd e =>
    obtain ⟨hi, hw, -⟩ := Channel.receive?_cases e
    refine load_others rfl ?_
    simp [hd, hi, hw]
    omega
  | take hd hr =>
    refine load_others rfl ?_
    simp [hd, hr]
    omega
  | hand hd h =>
    refine load_turn h rfl ?_
    simp [hd]
    omega
  | handBack hd => exact load_others rfl (by simp [hd])
  | give hd => exact load_others rfl (by simp [hd])
  | drop hd =>
    refine load_others rfl ?_
    simp only [stockLoad, intake_note, registry_note, dispatcher_note, hd, Dispatcher.load]
    omega
  | close hd =>
    refine load_others rfl ?_
    simp only [stockLoad, closeIntake, Channel.waiting_close, Channel.items_close, List.map_nil,
      total_nil, hd, Dispatcher.load]
    omega
  | drain hd e =>
    obtain ⟨hi, hw, -⟩ := Channel.receive?_cases e
    refine load_others rfl ?_
    simp only [stockLoad, intake_note, registry_note, dispatcher_note, hi, hw, hd, List.map_cons,
      total_cons, Dispatcher.load]
    omega
  | drained hd => exact load_others rfl (by simp [hd])

end

/-- The start of a job also takes what the job brings. -/
theorem Step.load_start (cost : J → Nat) {i : Nat} {job : J} (h : Step s m t)
    (hs : t.started = s.started ++ [(i, job)]) : t.load cost + cost job < s.load cost := by
  rcases h.started with ⟨k, job', hk, hb, hs'⟩ | ⟨-, hn⟩
  · obtain ⟨rfl, rfl⟩ : k = i ∧ job' = job := by
      simpa using List.append_cancel_left (hs'.symm.trans hs)
    cases h with
    | @start k job h | @find k job h =>
      cases hk
      have hlt := (List.getElem?_eq_some_iff.1 h).1
      obtain rfl : job = job' := by simpa [hlt] using hb
      have ht := total_map_set (·.load cost) h (.busy job)
      have hq : (Phase.busy job).load cost = 7 := rfl
      rw [hq, Phase.load.eq_def] at ht
      simp only at ht
      show s.stockLoad cost + total ((s.workers.set k (.busy job)).map (·.load cost)) + cost job <
        s.stockLoad cost + total (s.workers.map (·.load cost))
      omega
    | @forgotten k h | @findNone k h =>
      cases hk
      simp [(List.getElem?_eq_some_iff.1 h).1] at hb
    | _ => cases hk
  · rw [hn] at hs
    simp at hs

/-- What happens is written down in front of what happened before. -/
theorem Step.log (h : Step s m t) : ∃ new, t.log = new ++ s.log := by
  cases h with
  | close => exact ⟨_, rfl⟩
  | accept | refuse | enter | start | find | finish | crash | hand | drop | drain => exact ⟨[_], rfl⟩
  | _ => exact ⟨[], rfl⟩

/-- A worker does not crash by a move of another kind. -/
theorem Step.not_crashed (h : Step s m t) (hm : ∀ i, m ≠ .crash i)
    (hs : ∀ p ∈ s.workers, p.isCrashed = false) : ∀ p ∈ t.workers, p.isCrashed = false := by
  intro p hp
  cases h with
  | crash => exact absurd rfl (hm _)
  | goOn | leave | unheard | start | forgotten | withdraw | find | findNone | finish | register | hand =>
    rcases List.mem_or_eq_of_mem_set hp with hp | rfl
    · exact hs p hp
    · rfl
  | _ => exact hs p hp

/-! ## What comes next -/

namespace State

theorem next?_eq_some (h : s.next? = some m) : s.entryMove? = some m ∨
    (∃ i p, s.workers[i]? = some p ∧ s.workerMove? i p = some m) ∨ s.dispatcherMove? = some m := by
  rcases (Option.orElse_eq_some _ _ _).1 h with h | ⟨-, h⟩
  · exact .inl h
  · rcases (Option.orElse_eq_some _ _ _).1 h with h | ⟨-, h⟩
    · obtain ⟨⟨p, i⟩, hp, h⟩ := List.exists_of_findSome?_eq_some h
      exact .inr (.inl ⟨i, p, List.mem_zipIdx_iff_getElem?.1 hp, h⟩)
    · exact .inr (.inr h)

theorem next?_eq_none (h : s.next? = none) : s.entryMove? = none ∧
    (∀ i p, s.workers[i]? = some p → s.workerMove? i p = none) ∧ s.dispatcherMove? = none := by
  obtain ⟨he, h⟩ := (Option.orElse_eq_none _ _).1 h
  obtain ⟨hw, hd⟩ := (Option.orElse_eq_none _ _).1 h
  refine ⟨he, fun i p hp => ?_, hd⟩
  exact List.findSome?_eq_none_iff.1 hw (p, i) (List.mem_zipIdx_iff_getElem?.2 hp)

/-- The move that comes first is possible. -/
theorem exists_step_of_next? (h : s.next? = some m) : ∃ t, s.step m = some t := by
  rcases next?_eq_some h with h | ⟨i, p, hp, h⟩ | h
  · obtain ⟨w, hw, rfl⟩ := Option.map_eq_some_iff.1 h
    have hc : s.intake.calls w.1 = true :=
      List.any_eq_true.2 ⟨w, List.mem_of_mem_head? hw, beq_self_eq_true _⟩
    obtain ⟨r, hr⟩ := Channel.enter?_of_calls hc
    exact ⟨_, by rw [step, hr]; rfl⟩
  · unfold workerMove? at h
    split at h
    · cases h; simp [step, hp]
    · split at h <;> cases h
      next hc =>
      cases hd : s.dispatcherEnded <;> simp_all [step]
    · cases h; simp [step, hp]
    · split at h
      · cases h; simp [step, *]
      · split at h <;> cases h
        simp [step, *]
    · next job => cases h; cases job <;> simp [step, hp]
    · cases h
  · unfold dispatcherMove? at h
    split at h
    · next hd =>
      split at h
      · cases h; simp [step, *]
      · split at h <;> cases h
        next hi =>
        cases hr : s.intake.receive? with
        | none => simp [Channel.receive?_eq_none.1 hr] at hi
        | some r => simp [step, hd, hr]
    · next job hd =>
      split at h
      · cases h; simp_all [step]
      · split at h <;> cases h
        next hr =>
        cases hg : s.registry with
        | nil => simp [hg] at hr
        | cons i rest => simp [step, hd, hg]
    · next job i hd => cases h; simp only [step, hd]; split <;> simp
    · next hd => cases h; simp [step, hd]
    · next hd => cases h; cases hr : s.intake.receive? <;> simp [step, hd, hr]
    · cases h

theorem isOwn_of_next? (h : s.next? = some m) : m.isOwn = true := by
  rcases next?_eq_some h with h | ⟨i, p, hp, h⟩ | h
  · obtain ⟨w, -, rfl⟩ := Option.map_eq_some_iff.1 h
    rfl
  · unfold workerMove? at h
    repeat' split at h
    all_goals cases h
    all_goals rfl
  · unfold dispatcherMove? at h
    repeat' split at h
    all_goals cases h
    all_goals rfl

/-- If no move comes first, none is possible. -/
theorem settled_of_next? (h : s.next? = none) : s.Settled := by
  obtain ⟨he, hw, hd⟩ := next?_eq_none h
  intro m ho
  refine Option.eq_none_iff_forall_ne_some.2 fun t ht => ?_
  cases Step.of_step ht with
  | accept | park | refuse | stop | abandon | finish | crash => cases ho
  | enter e =>
    have hc := (Channel.enter?_cases e).1
    simp [entryMove?] at he
    simp [he] at hc
  | goOn h | leave h | start h | find h | findNone h =>
    have := hw _ _ h
    simp [workerMove?] at this
  | register h _ hr | unheard h hr | forgotten h hr =>
    have := hw _ _ h
    simp [workerMove?, hr] at this
  | @withdraw i job h hn =>
    have := hw _ _ h
    cases job <;> simp [workerMove?, isEnding_iff.2 hn] at this
    split at this <;> cases this
  | receive hd' e =>
    obtain ⟨hi, -⟩ := Channel.receive?_cases e
    simp only [dispatcherMove?, hd', hi] at hd
    split at hd <;> cases hd
  | take hd' hr =>
    simp only [dispatcherMove?, hd', hr] at hd
    split at hd <;> cases hd
  | hand hd' | handBack hd' | close hd' | drain hd' | drained hd' => simp [dispatcherMove?, hd'] at hd
  | give hd' hn => simp [dispatcherMove?, hd', isEnding_iff.2 hn] at hd
  | drop hd' hn =>
    have hg : (s.isEnding || (s.registry.isEmpty && s.workersEnded)) = true := by
      simpa [isEnding_iff] using hn
    simp [dispatcherMove?, hd', hg] at hd

/-- In a pool that has settled with no worker busy nobody waits to submit a job, and a job that comes
finds a place, if the intake is still open. -/
theorem Settled.idle (h : s.Settled) (l : Slots s) (a : Alive s) (g : Gate s)
    (hc : 0 < s.intake.capacity) (hb : ∀ p ∈ s.workers, p.status ≠ .busy) :
    s.intake.waiting = [] ∧ (s.intake.isClosed = false → s.intake.items = []) := by
  have hempty : s.intake.isClosed = false → s.intake.items = [] := by
    intro ho
    have hne : s.dispatcherEnded = false := Bool.eq_false_iff.2 fun he =>
      Bool.false_ne_true (ho.symm.trans (g.isClosed_of_ended he))
    by_cases hn : s.shutdown = .none
    · rcases h.cases l a hn with ⟨-, hi⟩ | ⟨hall, ⟨job, hd⟩ | he⟩
      · exact hi
      · -- Without a worker the dispatcher does not hold on to its job.
        have hw : s.workers = [] :=
          List.eq_nil_iff_forall_not_mem.2 fun p hp => hb p hp (hall p hp)
        have hr : s.registry = [] := List.eq_nil_iff_forall_not_mem.2 fun i hi => by
          obtain ⟨p, hp, -⟩ := l.out i (List.mem_append_right _ hi)
          rw [hw] at hp
          cases hp
        have := h .give rfl
        simp [step, hd, hr, workersEnded, hw] at this
      · rw [hne] at he; cases he
    · have he := isEnding_iff.2 hn
      cases hd : s.dispatcher with
      | receiving | holding => have := h .give rfl; simp [step, hd, he] at this
      | offering job i =>
        have := h .hand rfl
        simp only [step, hd] at this
        split at this <;> cases this
      | closing n => have := h .close rfl; simp [step, hd] at this
      | draining n =>
        have := h .drain rfl
        cases e : s.intake.receive? <;> simp [step, hd, e] at this
      | ended n => rw [dispatcherEnded, hd] at hne; cases hne
  refine ⟨?_, hempty⟩
  cases ho : s.intake.isClosed with
  | true => exact g.turnedAway ho
  | false =>
    by_contra hw
    have hf := h.full hw
    rw [hempty ho] at hf
    exact Nat.ne_of_lt hc hf

end State

end Herald.Pool
