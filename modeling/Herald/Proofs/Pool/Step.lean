import Herald.Pool
import Herald.Proofs.Trace

/-!
# What a move makes of a pool

`State.step` says what becomes of a pool; `Step` lists the same by cases, one for each way in which
a move can go, with what was the case before. Proofs about runs go through the cases and do not
look into `State.step`.

* `Step.of_step`: every step is one of the cases.
* `State.Run.keeps`: what every step keeps holds along a run.
-/

namespace Herald.Pool

variable {J : Type} {s t : State J} {m : Move J}

open State

/-- The ways in which a move can go. -/
inductive Step (s : State J) : Move J → State J → Prop
  | accept {job : J} {intake : Channel J} : s.intake.send? job = some (none, intake) →
    Step s (.submit job) ({ s with intake }.note (.accepted job))
  | park {job : J} {ticket : Nat} {intake : Channel J} :
    s.intake.send? job = some (some ticket, intake) → Step s (.submit job) { s with intake }
  | refuse {job : J} : s.intake.isClosed = true → Step s (.submit job) (s.note (.refused job))
  | enter {ticket : Nat} {job : J} {intake : Channel J} :
    s.intake.enter? ticket = some (job, intake) →
    Step s (.enter ticket) ({ s with intake }.note (.accepted job))
  | stop : s.shutdown = .none → Step s .stop { s with shutdown := .stopped }
  | abandon : s.shutdown = .none → Step s .abandon { s with shutdown := .abandoned }
  | goOn {i : Nat} : s.workers[i]? = some .deciding → s.shutdown ≠ .stopped →
    Step s (.decide i) (s.put i .asking)
  | leave {i : Nat} : s.workers[i]? = some .deciding → s.shutdown = .stopped →
    Step s (.decide i) (s.put i .stopped)
  | register {i : Nat} : s.workers[i]? = some .asking → s.dispatcherEnded = false →
    s.registry.length < s.places →
    Step s (.ask i) { s.put i (.waiting none) with registry := s.registry ++ [i] }
  | unheard {i : Nat} : s.workers[i]? = some .asking → s.dispatcherEnded = true →
    Step s (.ask i) (s.put i .stopped)
  | start {i : Nat} {job : J} : s.workers[i]? = some (.waiting (some job)) →
    Step s (.start i) ((s.put i (.busy job)).note (.started i job))
  | forgotten {i : Nat} : s.workers[i]? = some (.waiting none) → s.dispatcherEnded = true →
    Step s (.start i) (s.put i .stopped)
  | withdraw {i : Nat} {job : Option J} : s.workers[i]? = some (.waiting job) →
    s.shutdown ≠ .none → Step s (.withdraw i) (s.put i (.closed job))
  | find {i : Nat} {job : J} : s.workers[i]? = some (.closed (some job)) →
    Step s (.look i) ((s.put i (.busy job)).note (.started i job))
  | findNone {i : Nat} : s.workers[i]? = some (.closed none) →
    Step s (.look i) (s.put i .stopped)
  | finish {i : Nat} {job : J} : s.workers[i]? = some (.busy job) →
    Step s (.finish i) ((s.put i .deciding).note (.finished i job))
  | crash {i : Nat} {job : J} : s.workers[i]? = some (.busy job) →
    Step s (.crash i) ((s.put i (.crashed job)).note (.crashed i job))
  | receive {job : J} {intake : Channel J} : s.dispatcher = .receiving →
    s.intake.receive? = some (job, intake) →
    Step s .receive { s with intake, dispatcher := .holding job }
  | take {job : J} {i : Nat} {rest : List Nat} : s.dispatcher = .holding job →
    s.registry = i :: rest →
    Step s .take { s with registry := rest, dispatcher := .offering job i }
  | hand {job : J} {i : Nat} : s.dispatcher = .offering job i →
    s.workers[i]? = some (.waiting none) →
    Step s .hand
      ({ s.put i (.waiting (some job)) with dispatcher := .receiving }.note (.handed i job))
  | handBack {job : J} {i : Nat} : s.dispatcher = .offering job i →
    s.workers[i]? ≠ some (.waiting none) → Step s .hand { s with dispatcher := .holding job }
  | give : s.dispatcher = .receiving → s.shutdown ≠ .none →
    Step s .give { s with dispatcher := .closing 0 }
  | drop {job : J} : s.dispatcher = .holding job →
    s.shutdown ≠ .none ∨ s.registry = [] ∧ s.workersEnded = true →
    Step s .give ({ s with dispatcher := .closing 1 }.note (.dropped job))
  | close {n : Nat} : s.dispatcher = .closing n → Step s .close (s.closeIntake n)
  | drain {n : Nat} {job : J} {intake : Channel J} : s.dispatcher = .draining n →
    s.intake.receive? = some (job, intake) →
    Step s .drain ({ s with intake, dispatcher := .draining (n + 1) }.note (.dropped job))
  | drained {n : Nat} : s.dispatcher = .draining n → s.intake.items = [] →
    Step s .drain { s with dispatcher := .ended n }

theorem isVacant_iff {p : Phase J} : p.isVacant = true ↔ p = .waiting none := by
  cases p with
  | waiting job => cases job <;> simp [Phase.isVacant]
  | _ => simp [Phase.isVacant]

theorem isEnding_iff : s.isEnding = true ↔ s.shutdown ≠ .none := by simp [isEnding]

theorem Step.of_step (h : s.step m = some t) : Step s m t := by
  cases m with
  | submit job =>
    simp only [State.step, submit, Option.some.injEq] at h
    subst h
    split
    · next e => exact .refuse (Channel.send?_eq_none.1 e)
    · next e => exact .accept e
    · next e => exact .park e
  | enter ticket =>
    simp only [State.step, Option.map_eq_some_iff] at h
    obtain ⟨⟨job, intake⟩, e, rfl⟩ := h
    exact .enter e
  | stop =>
    simp only [State.step] at h
    split at h <;> cases h
    exact .stop (by simpa [isEnding] using ‹¬ s.isEnding = true›)
  | abandon =>
    simp only [State.step] at h
    split at h <;> cases h
    exact .abandon (by simpa [isEnding] using ‹¬ s.isEnding = true›)
  | decide i =>
    simp only [State.step] at h
    split at h <;> cases h
    split
    · exact .leave ‹_› ‹_›
    · exact .goOn ‹_› ‹_›
  | ask i =>
    simp only [State.step] at h
    split at h
    · split at h
      · cases h; exact .unheard ‹_› ‹_›
      · split at h <;> cases h
        exact .register ‹_› (Bool.eq_false_iff.2 ‹_›) ‹_›
    · cases h
  | start i =>
    simp only [State.step] at h
    split at h
    · cases h; exact .start ‹_›
    · split at h <;> cases h
      exact .forgotten ‹_› ‹_›
    · cases h
  | withdraw i =>
    simp only [State.step] at h
    split at h
    · split at h <;> cases h
      exact .withdraw ‹_› (isEnding_iff.1 ‹_›)
    · cases h
  | look i =>
    simp only [State.step] at h
    split at h <;> cases h
    · exact .find ‹_›
    · exact .findNone ‹_›
  | finish i =>
    simp only [State.step] at h
    split at h <;> cases h
    exact .finish ‹_›
  | crash i =>
    simp only [State.step] at h
    split at h <;> cases h
    exact .crash ‹_›
  | receive =>
    simp only [State.step] at h
    split at h <;> cases h
    exact .receive ‹_› ‹_›
  | take =>
    simp only [State.step] at h
    split at h <;> cases h
    exact .take ‹_› ‹_›
  | hand =>
    simp only [State.step] at h
    split at h
    · next job i e =>
      split at h <;> cases h
      · next hv =>
        obtain ⟨p, hp, hv⟩ := (Option.any_eq_true _ _).1 hv
        rw [isVacant_iff.1 hv] at hp
        exact .hand e hp
      · next hv =>
        refine .handBack e fun hp => hv ?_
        rw [hp]; rfl
    · cases h
  | give =>
    simp only [State.step] at h
    split at h
    · split at h <;> cases h
      exact .give ‹_› (isEnding_iff.1 ‹_›)
    · split at h <;> cases h
      next hc =>
      simp only [Bool.or_eq_true, Bool.and_eq_true, List.isEmpty_iff, isEnding_iff] at hc
      exact .drop ‹_› hc
    · cases h
  | close =>
    simp only [State.step] at h
    split at h <;> cases h
    exact .close ‹_›
  | drain =>
    simp only [State.step] at h
    split at h <;> cases h
    · exact .drain ‹_› ‹_›
    · exact .drained ‹_› (Channel.receive?_eq_none.1 ‹_›)

/-- The pools that moves lead to; the moves are given latest first. -/
def State.Run (s : State J) : List (Move J) → State J → Prop := Trace State.step s

/-- What every step keeps holds along a run. -/
theorem State.Run.keeps {P : List (Move J) → State J → Prop} {moves : List (Move J)}
    (h : Run s moves t) (base : P [] s)
    (step : ∀ moves t m u, P moves t → Step t m u → P (m :: moves) u) : P moves t :=
  Trace.keeps h base fun moves t m u hp e => step moves t m u hp (.of_step e)

end Herald.Pool
