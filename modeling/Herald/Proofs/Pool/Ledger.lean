import Herald.Proofs.Pool.Step
import Mathlib.Data.List.Perm.Subperm

/-!
# The books of a pool

What happened to the jobs of a pool, as lists in the order in which it happened, and how they hang
together at every moment of a run.

* `State.accepted`, `refused`, `dropped`: jobs; `handed`, `started`, `finished`, `crashed`: jobs
  with the worker concerned.
* `Ledger`: what was accepted is what was handed over, then what was dropped, then what is still
  queued. `Ledger.step` keeps it.
* `Gate`: the intake is closed by the dispatcher alone, which then empties it.
* `Step.started`: which moves start jobs.
-/

namespace Herald.Pool

variable {J : Type} {s t : State J} {m : Move J} {moves : List (Move J)}

/-! ## What happened -/

namespace Happening

def accepted? : Happening J → Option J
  | accepted job => some job
  | _ => none

def refused? : Happening J → Option J
  | refused job => some job
  | _ => none

def dropped? : Happening J → Option J
  | dropped job => some job
  | _ => none

def handed? : Happening J → Option (Nat × J)
  | handed worker job => some (worker, job)
  | _ => none

def started? : Happening J → Option (Nat × J)
  | started worker job => some (worker, job)
  | _ => none

def finished? : Happening J → Option (Nat × J)
  | finished worker job => some (worker, job)
  | _ => none

def crashed? : Happening J → Option (Nat × J)
  | crashed worker job => some (worker, job)
  | _ => none

end Happening

namespace State

open Happening

def accepted (s : State J) : List J := pick accepted? s.log

def refused (s : State J) : List J := pick refused? s.log

def dropped (s : State J) : List J := pick dropped? s.log

def handed (s : State J) : List (Nat × J) := pick handed? s.log

def started (s : State J) : List (Nat × J) := pick started? s.log

def finished (s : State J) : List (Nat × J) := pick finished? s.log

def crashed (s : State J) : List (Nat × J) := pick crashed? s.log

theorem mem_accepted_note (s : State J) (job : J) : job ∈ (s.note (.accepted job)).accepted :=
  mem_pick.2 ⟨_, List.mem_cons_self .., rfl⟩

theorem mem_refused_note (s : State J) (job : J) : job ∈ (s.note (.refused job)).refused :=
  mem_pick.2 ⟨_, List.mem_cons_self .., rfl⟩

end State

/-- The jobs that were submitted in a run, in any order. -/
def submissions (moves : List (Move J)) : List J :=
  moves.filterMap fun
    | .submit job => some job
    | _ => none

/-- The jobs of one worker. -/
def ofWorker (i : Nat) (jobs : List (Nat × J)) : List J :=
  jobs.filterMap fun p => if p.1 = i then some p.2 else none

@[simp] theorem ofWorker_nil (i : Nat) : ofWorker i ([] : List (Nat × J)) = [] := rfl

@[simp] theorem ofWorker_append (i : Nat) (l l' : List (Nat × J)) :
    ofWorker i (l ++ l') = ofWorker i l ++ ofWorker i l' := List.filterMap_append

@[simp] theorem ofWorker_singleton (i k : Nat) (job : J) :
    ofWorker i [(k, job)] = if k = i then [job] else [] := by
  by_cases h : k = i <;> simp [ofWorker, h]

theorem ofWorker_cons (i : Nat) (p : Nat × J) (l : List (Nat × J)) :
    ofWorker i (p :: l) = (if p.1 = i then [p.2] else []) ++ ofWorker i l := by
  rw [← ofWorker_singleton, ← ofWorker_append]; rfl

section

open scoped Classical in
/-- What is counted in a book is counted among the jobs of its worker. -/
theorem count_ofWorker (p : Nat × J) (l : List (Nat × J)) :
    l.count p = (ofWorker p.1 l).count p.2 := by
  induction l with
  | nil => rfl
  | cons q l ih =>
    rw [List.count_cons, ih, ofWorker_cons, List.count_append, Nat.add_comm]
    by_cases hq : q.1 = p.1
    · simp [hq, List.count_cons, Prod.ext_iff]
    · simp [hq, Prod.ext_iff]

/-- Two books that say the same about each worker say the same. -/
theorem perm_of_ofWorker {l l' : List (Nat × J)} (h : ∀ i, ofWorker i l = ofWorker i l') :
    l.Perm l' := by
  classical
  apply List.perm_iff_count.2
  intro p
  rw [count_ofWorker, count_ofWorker, h]

/-- A book that says no more about each worker than another one says no more. -/
theorem subperm_of_ofWorker {l l' : List (Nat × J)}
    (h : ∀ i, (ofWorker i l).Sublist (ofWorker i l')) : l.Subperm l' := by
  classical
  apply List.subperm_ext_iff.2
  intro p _
  rw [count_ofWorker, count_ofWorker]
  exact (h p.1).count_le p.2

end

/-! ## Where jobs are -/

namespace Dispatcher

/-- How many jobs the dispatcher has dropped. -/
def dropped : Dispatcher J → Nat
  | closing n | draining n | ended n => n
  | _ => 0

/-- The dispatcher has closed the intake. -/
def hasClosed : Dispatcher J → Bool
  | draining _ | ended _ => true
  | _ => false

end Dispatcher

namespace Phase

/-- The job that a worker was handed last, unless it has finished it. -/
def held? : Phase J → Option J
  | waiting job | closed job => job
  | busy job | crashed job => some job
  | _ => none

/-- The job that a worker has started last, unless it has finished it. -/
def begun? : Phase J → Option J
  | busy job | crashed job => some job
  | _ => none

/-- The job at which the handler of a worker broke down. -/
def broken? : Phase J → Option J
  | crashed job => some job
  | _ => none

end Phase

namespace State

/-- The accepted jobs about which nothing is decided yet, oldest first. -/
def queued (s : State J) : List J := s.dispatcher.hand.toList ++ s.intake.items

/-- What the phases of the workers say about them, with the workers. -/
def each (s : State J) (left : Phase J → Option J) : List (Nat × J) :=
  s.workers.zipIdx.filterMap fun p => (left p.1).map (p.2, ·)

theorem length_each_le (s : State J) (left : Phase J → Option J) :
    (s.each left).length ≤ s.workers.length := by
  simpa [each] using List.length_filterMap_le (fun p => (left p.1).map (p.2, ·)) s.workers.zipIdx

private theorem ofWorker_zipIdx (left : Phase J → Option J) (workers : List (Phase J)) (n i : Nat) :
    ofWorker i ((workers.zipIdx n).filterMap fun p => (left p.1).map (p.2, ·)) =
      if n ≤ i then (workers[i - n]?.bind left).toList else [] := by
  induction workers generalizing n with
  | nil => simp
  | cons p workers ih =>
    have hc : ofWorker i (((p :: workers).zipIdx n).filterMap fun p => (left p.1).map (p.2, ·)) =
        (if n = i then (left p).toList else []) ++
          ofWorker i ((workers.zipIdx (n + 1)).filterMap fun p => (left p.1).map (p.2, ·)) := by
      cases h : left p
      · simp [List.zipIdx_cons, h]
      · simp [List.zipIdx_cons, h, ofWorker_cons]
    rw [hc, ih]
    rcases Nat.lt_trichotomy i n with h | rfl | h
    · rw [if_neg (by omega), if_neg (by omega), if_neg (by omega)]; rfl
    · rw [if_pos rfl, if_neg (Nat.not_succ_le_self i), if_pos (Nat.le_refl i)]
      simp
    · obtain ⟨k, rfl⟩ : ∃ k, i = n + (k + 1) := ⟨i - n - 1, by omega⟩
      have hk : n + (k + 1) - (n + 1) = k := by omega
      rw [if_neg (by omega), if_pos (by omega), if_pos (by omega), hk, Nat.add_sub_cancel_left]
      rfl

/-- Of the phases, each worker has its own. -/
theorem ofWorker_each (s : State J) (left : Phase J → Option J) (i : Nat) :
    ofWorker i (s.each left) = (s.workers[i]?.bind left).toList := by
  simpa [each] using ofWorker_zipIdx left s.workers 0 i

theorem mem_each {s : State J} {left : Phase J → Option J} {i : Nat} {job : J} :
    (i, job) ∈ s.each left ↔ s.workers[i]?.bind left = some job := by
  simp only [each, List.mem_filterMap, Option.map_eq_some_iff, Prod.mk.injEq, Prod.exists,
    List.mem_zipIdx_iff_getElem?, Option.bind_eq_some_iff]
  constructor
  · rintro ⟨p, k, hp, _, hl, rfl, rfl⟩; exact ⟨p, hp, hl⟩
  · rintro ⟨p, hp, hl⟩; exact ⟨p, i, hp, _, hl, rfl, rfl⟩

/-- What a worker's phase says about it after it was put into another one. -/
theorem bind_put {α : Type} {s : State J} {i : Nat} {p : Phase J} (f : Phase J → Option α)
    (h : s.workers[i]? = some p) (q : Phase J) (k : Nat) :
    (s.put i q).workers[k]?.bind f = if k = i then f q else s.workers[k]?.bind f := by
  have hi : i < s.workers.length := (List.getElem?_eq_some_iff.1 h).1
  by_cases hk : k = i
  · subst hk; simp [put, hi]
  · simp [put, hk, List.getElem?_set_ne (Ne.symm hk)]

end State

/-! ## The intake -/

/-- The intake is open until the dispatcher closes it, and empty once the dispatcher has ended. -/
structure Gate (s : State J) : Prop where
  closed : s.intake.isClosed = s.dispatcher.hasClosed
  turnedAway : s.intake.isClosed = true → s.intake.waiting = []
  emptied : s.dispatcherEnded = true → s.intake.items = []

namespace Gate

theorem create (size capacity : Nat) : Gate (State.create size capacity : State J) :=
  ⟨rfl, nofun, nofun⟩

theorem isClosed_of_ended (g : Gate s) (h : s.dispatcherEnded = true) : s.intake.isClosed = true := by
  rw [g.closed]
  unfold State.dispatcherEnded at h
  split at h
  · next e => rw [e]; rfl
  · cases h

/-- An intake that is not closed holds whatever comes in. -/
theorem of_open (g : Gate s) (hd : t.dispatcher = s.dispatcher)
    (hc : t.intake.isClosed = s.intake.isClosed) (ho : s.intake.isClosed = false) : Gate t := by
  refine ⟨by rw [hc, hd]; exact g.closed, ?_, ?_⟩
  · intro h
    rw [hc, ho] at h; cases h
  · intro h
    rw [show t.dispatcherEnded = s.dispatcherEnded by simp only [State.dispatcherEnded, hd]] at h
    rw [g.isClosed_of_ended h] at ho; cases ho

theorem step (g : Gate s) (h : Step s m t) : Gate t := by
  cases h with
  | accept e | park e =>
    obtain ⟨-, hc, ho⟩ := Channel.send?_keeps e
    exact g.of_open rfl hc ho
  | enter e =>
    obtain ⟨hm, -⟩ := Channel.enter?_cases e
    refine g.of_open rfl (Channel.enter?_keeps e).2.1 (Bool.eq_false_iff.2 fun hc => ?_)
    have hw := List.mem_of_mem_take hm
    rw [g.turnedAway hc] at hw; cases hw
  | receive hd e =>
    have hc : s.intake.isClosed = false := by rw [g.closed, hd]; rfl
    have hc' := (Channel.receive?_keeps e).2.trans hc
    exact ⟨hc', fun h => (by cases hc'.symm.trans h), nofun⟩
  | take hd | hand hd | handBack hd | give hd | drop hd =>
    have hc : s.intake.isClosed = false := by rw [g.closed, hd]; rfl
    exact ⟨hc, g.turnedAway, nofun⟩
  | close hd => exact ⟨rfl, fun _ => rfl, nofun⟩
  | drain hd e =>
    have hc : s.intake.isClosed = true := by rw [g.closed, hd]; rfl
    exact ⟨(Channel.receive?_keeps e).2.trans hc,
      fun _ => (Channel.receive?_cases e).2.1.trans (g.turnedAway hc), nofun⟩
  | drained hd hi =>
    have hc : s.intake.isClosed = true := by rw [g.closed, hd]; rfl
    exact ⟨hc, g.turnedAway, fun _ => hi⟩
  | _ => exact ⟨g.closed, g.turnedAway, g.emptied⟩

end Gate

/-! ## From acceptance to a worker -/

/-- How the books of a pool agree with each other and with what is in the pool. -/
structure Ledger (moves : List (Move J)) (s : State J) : Prop where
  submitted : (submissions moves).Perm (s.accepted ++ s.refused ++ s.intake.waiting.map (·.2))
  order : s.accepted = s.handed.map (·.2) ++ s.dropped ++ s.queued
  count : s.dropped.length = s.dispatcher.dropped

theorem pick_refusals {α : Type} {f : Happening J → Option α} (hf : ∀ job, f (.refused job) = none)
    (waiting : List (Nat × J)) :
    pick f (waiting.map fun w => .refused w.2).reverse = [] := by
  refine pick_eq_nil ?_
  intro h hm
  obtain ⟨w, -, rfl⟩ := List.mem_map.1 (List.mem_reverse.1 hm)
  exact hf w.2

theorem refused_refusals (waiting : List (Nat × J)) :
    pick Happening.refused? (waiting.map fun w => .refused w.2).reverse =
      waiting.map (·.2) := by
  simp only [pick, List.filterMap_reverse, List.reverse_reverse, List.filterMap_map]
  exact List.filterMap_eq_map (f := fun w : Nat × J => w.2) ▸ rfl

namespace Ledger

theorem create (size capacity : Nat) : Ledger [] (State.create size capacity : State J) :=
  ⟨.nil, rfl, rfl⟩

/-- Before the dispatcher gives up, nothing is dropped. -/
theorem dropped_eq_nil (l : Ledger moves s) (h : s.dispatcher.dropped = 0) : s.dropped = [] :=
  List.length_eq_zero_iff.1 (l.count.trans h)

section

attribute [local simp] State.accepted State.refused State.dropped State.handed State.queued
  Happening.accepted? Happening.refused? Happening.dropped? Happening.handed? Happening.started?
  Happening.finished? Happening.crashed? Dispatcher.hand Dispatcher.dropped submissions

theorem step (l : Ledger moves s) (h : Step s m t) : Ledger (m :: moves) t := by
  cases h with
  | @accept job intake e =>
    rcases Channel.send?_cases e with ⟨-, hi, hw, -⟩ | ⟨h, -⟩
    · refine ⟨?_, ?_, by simpa using l.count⟩
      · simpa [hw] using (l.submitted.cons job).trans (by simpa using List.perm_middle.symm)
      · simpa [hi] using congrArg (· ++ [job]) l.order
    · cases h
  | @park job ticket intake e =>
    rcases Channel.send?_cases e with ⟨h, -⟩ | ⟨-, hi, hw, -⟩
    · cases h
    · refine ⟨?_, by simpa [hi] using l.order, l.count⟩
      simpa [hw] using (l.submitted.cons job).trans (List.perm_append_singleton job _).symm
  | @refuse job hc =>
    refine ⟨?_, by simpa using l.order, by simpa using l.count⟩
    have hp := @List.perm_middle _ job (s.accepted ++ s.refused) (s.intake.waiting.map (·.2))
    simpa using (l.submitted.cons job).trans hp.symm
  | @enter ticket job intake e =>
    obtain ⟨-, hi, before, after, hw, hw', -⟩ := Channel.enter?_cases e
    refine ⟨?_, ?_, by simpa using l.count⟩
    · have hp := @List.perm_middle _ job (s.refused ++ before.map (·.2)) (after.map (·.2))
      have hs := l.submitted
      rw [hw] at hs
      simpa [hw'] using hs.trans (by simpa using hp.append_left s.accepted)
    · simpa [hi] using congrArg (· ++ [job]) l.order
  | stop | abandon | goOn | leave | register | unheard | withdraw | findNone | forgotten =>
    exact ⟨l.submitted, l.order, l.count⟩
  | start | find | finish | crash =>
    exact ⟨by simpa using l.submitted, by simpa using l.order, by simpa using l.count⟩
  | receive hd e =>
    obtain ⟨hi, hw, -⟩ := Channel.receive?_cases e
    exact ⟨by simpa [hw] using l.submitted, by simpa [hd, hi] using l.order,
      by simpa [hd] using l.count⟩
  | take hd => exact ⟨l.submitted, by simpa [hd] using l.order, by simpa [hd] using l.count⟩
  | handBack hd => exact ⟨l.submitted, by simpa [hd] using l.order, by simpa [hd] using l.count⟩
  | hand hd hw =>
    have hn := l.dropped_eq_nil (by rw [hd]; rfl)
    simp only [State.dropped] at hn
    exact ⟨by simpa using l.submitted, by simpa [hd, hn] using l.order, by simp [hn]⟩
  | give hd hs => exact ⟨l.submitted, by simpa [hd] using l.order, by simpa [hd] using l.count⟩
  | drop hd hs =>
    have hn := l.dropped_eq_nil (by rw [hd]; rfl)
    simp only [State.dropped] at hn
    exact ⟨by simpa using l.submitted, by simpa [hd, hn] using l.order, by simp [hn]⟩
  | close hd =>
    have ha := pick_refusals (f := Happening.accepted?) (fun _ => rfl) s.intake.waiting
    have hh := pick_refusals (f := Happening.handed?) (fun _ => rfl) s.intake.waiting
    have hn := pick_refusals (f := Happening.dropped?) (fun _ => rfl) s.intake.waiting
    refine ⟨?_, ?_, ?_⟩
    · simpa [State.closeIntake, ha, refused_refusals] using l.submitted
    · simpa [State.closeIntake, ha, hh, hn, hd] using l.order
    · simpa [State.closeIntake, hn, hd] using l.count
  | drain hd e =>
    obtain ⟨hi, hw, -⟩ := Channel.receive?_cases e
    exact ⟨by simpa [hw] using l.submitted, by simpa [hd, hi] using l.order,
      by simpa [hd] using l.count⟩
  | drained hd hi => exact ⟨l.submitted, by simpa [hd] using l.order, by simpa [hd] using l.count⟩

end

end Ledger

/-! ## Starts -/

/-- Whether a worker starts a job with a move, and which. -/
def Move.starter? : Move J → Option Nat
  | .start worker | .look worker => some worker
  | _ => none

/-- A job is started by the move of a worker that starts one, or none is. -/
theorem Step.started (h : Step s m t) :
    (∃ i job, m.starter? = some i ∧ t.workers[i]? = some (.busy job) ∧
      t.started = s.started ++ [(i, job)]) ∨
    (∀ i, m.starter? = some i → t.workers[i]? = some .stopped) ∧ t.started = s.started := by
  cases h with
  | @start i job h | @find i job h =>
    refine .inl ⟨i, job, rfl, ?_, by simp [State.started, Happening.started?]⟩
    exact List.getElem?_set_self (List.getElem?_eq_some_iff.1 h).1
  | @forgotten i h | @findNone i h =>
    refine .inr ⟨?_, rfl⟩
    intro k hk
    cases hk
    exact List.getElem?_set_self (List.getElem?_eq_some_iff.1 h).1
  | close hd =>
    have hn := pick_refusals (f := Happening.started?) (fun _ => rfl) s.intake.waiting
    exact .inr ⟨nofun, by simp [State.started, State.closeIntake, hn]⟩
  | _ => exact .inr ⟨nofun, by simp [State.started, Happening.started?]⟩

theorem Step.length_workers (h : Step s m t) : t.workers.length = s.workers.length := by
  cases h <;> simp [State.closeIntake]

end Herald.Pool
