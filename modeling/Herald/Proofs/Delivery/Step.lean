import Herald.Delivery.Run
import Herald.Proofs.Trace

/-!
# What happens to delivery workers

`Worker.step` says what a move makes of a worker; `Move.Step` lists the same by cases. Jobs are
assigned to workers, workers move and time passes, in any order, and the collaborators may reply to
each call as they like.

* `Move.Step.of_step`: every step of a worker is one of the cases.
* `State.Step.of_step`: the same for the errands of workers side by side.
* `State.Run`: what may happen to some workers from a state on.
-/

namespace Herald.Delivery

variable {settings : Settings} {w : World}

/-! ## Moves of a worker -/

/-- The ways in which a move of a worker can go. -/
inductive Move.Step (settings : Settings) (w : World) (clock : ClockedCache) (k : Worker) :
    Move → Worker × ClockedCache × List Happening → Prop
  | start {e : Errand} {rest : List Errand} : k.waiting = e :: rest →
    k.flights.length < Worker.room settings →
    Step settings w clock k .start
      ({ k with waiting := rest, flights := k.flights ++ [⟨e, .fresh⟩] }, clock, [.began e])
  | turn {position : Nat} {f : Flight} {out : Option Stage × Scene} {flights : List Flight} :
    k.flights[position]? = some f → f.stage.isReady (k.scene clock) = true →
    proceed settings w f.errand (k.scene clock) f.stage = out →
    flights.Perm (out.1.toList.map (⟨f.errand, ·⟩) ++ k.flights.eraseIdx position) →
    Step settings w clock k (.turn position)
      ({ k with flights, sink := { k.sink with queue := out.2.queue } }, out.2.clock, out.2.log)
  | take {token : DeviceToken} {sink : Cleanup.Sink} :
    k.sink.take? settings.limit w.removal clock.now = some (token, sink) →
    Step settings w clock k .take ({ k with sink }, clock, [.called (.removeDevice token)])
  | finish {sink : Cleanup.Sink} : k.sink.finish? clock.now = some sink →
    Step settings w clock k .finish ({ k with sink }, clock, [])

theorem Worker.reinsert_perm (s : Scene) (before : Stage) {position : Nat} (f : Flight)
    {flights : List Flight} (h : position < flights.length) :
    (reinsert s before position f flights).Perm (f :: flights.eraseIdx position) := by
  unfold reinsert
  split
  · exact List.set_perm_cons_eraseIdx h f
  · exact List.perm_append_singleton f _

theorem Move.Step.of_step {clock : ClockedCache} {k : Worker} {m : Move}
    {r : Worker × ClockedCache × List Happening} (h : k.step settings w clock m = some r) :
    Step settings w clock k m r := by
  cases m with
  | start =>
    simp only [Worker.step] at h
    split at h
    · cases h
    · split at h <;> cases h
      exact .start ‹_› ‹_›
  | turn position =>
    simp only [Worker.step] at h
    split at h
    · cases h
    · next f hf =>
      split at h <;> cases h
      next hr =>
      refine .turn hf hr rfl ?_
      have hlt : position < k.flights.length := (List.getElem?_eq_some_iff.1 hf).1
      split
      · next ho => rw [ho]; exact .refl _
      · next stage ho => rw [ho]; exact Worker.reinsert_perm _ _ _ hlt
  | take =>
    simp only [Worker.step, Option.map_eq_some_iff] at h
    obtain ⟨⟨token, sink⟩, e, rfl⟩ := h
    exact .take e
  | finish =>
    simp only [Worker.step, Option.map_eq_some_iff] at h
    obtain ⟨sink, e, rfl⟩ := h
    exact .finish e

/-! ## Workers side by side -/

/-- The errands that a worker has not finished. -/
def Worker.errands (k : Worker) : List Errand := k.waiting ++ k.flights.map (·.errand)

theorem Worker.isBusy_eq_false {k : Worker} : k.isBusy = false ↔ k.waiting = [] ∧ k.flights = [] := by
  simp [isBusy]

namespace State

/-- The errands that have not started. -/
def waiting (s : State) : List Errand := s.workers.flatMap (·.waiting)

def flights (s : State) : List Flight := s.workers.flatMap (·.flights)

end State

theorem flatMap_perm {α β : Type} {l : List α} {i : Nat} {a : α} (f : α → List β)
    (h : l[i]? = some a) : (l.flatMap f).Perm (f a ++ (l.eraseIdx i).flatMap f) := by
  exact ((perm_eraseIdx h).flatMap_right f).trans (by simp)

theorem flatMap_set_perm {α β : Type} {l : List α} {i : Nat} {a : α} (b : α) (f : α → List β)
    (h : l[i]? = some a) : ((l.set i b).flatMap f).Perm (f b ++ (l.eraseIdx i).flatMap f) := by
  have hi := (List.getElem?_eq_some_iff.1 h).1
  exact ((List.set_perm_cons_eraseIdx hi b).flatMap_right f).trans (by simp)

namespace State

/-- A step is a move of one worker. -/
theorem step_parts {s t : State} {worker : Nat} {m : Move} (h : s.step settings w worker m = some t) :
    ∃ k r, s.workers[worker]? = some k ∧ k.step settings w s.clock m = some r ∧
      t = ⟨r.2.1, s.workers.set worker r.1, r.2.2 ++ s.log⟩ := by
  obtain ⟨k, hk, h⟩ := Option.bind_eq_some_iff.1 h
  obtain ⟨r, hr, h⟩ := Option.bind_eq_some_iff.1 h
  exact ⟨k, r, hk, hr, (Option.some.inj h).symm⟩

theorem step_cases {s t : State} {worker : Nat} {m : Move} (h : s.step settings w worker m = some t) :
    ∃ k r, s.workers[worker]? = some k ∧ Move.Step settings w s.clock k m r ∧
      t = ⟨r.2.1, s.workers.set worker r.1, r.2.2 ++ s.log⟩ := by
  obtain ⟨k, r, hk, hr, rfl⟩ := step_parts h
  exact ⟨k, r, hk, .of_step hr, rfl⟩

/-- The ways in which a move of a worker can go, by what becomes of the errands of all workers. -/
inductive Step (settings : Settings) (w : World) (s : State) (worker : Nat) : Move → State → Prop
  | start {t : State} {e : Errand} {rest : List Errand} : s.waiting.Perm (e :: rest) →
    t.waiting.Perm rest → t.flights.Perm (⟨e, .fresh⟩ :: s.flights) → t.clock = s.clock →
    t.log = .began e :: s.log → Step settings w s worker .start t
  | turn {t : State} {position : Nat} {k : Worker} {f : Flight} {rest : List Flight}
    {out : Option Stage × Scene} : s.workers[worker]? = some k → k.flights[position]? = some f →
    f.stage.isReady (k.scene s.clock) = true →
    proceed settings w f.errand (k.scene s.clock) f.stage = out → t.waiting.Perm s.waiting →
    s.flights.Perm (f :: rest) → t.flights.Perm (out.1.toList.map (⟨f.errand, ·⟩) ++ rest) →
    t.clock = out.2.clock → t.log = out.2.log ++ s.log → Step settings w s worker (.turn position) t
  | take {t : State} {token : DeviceToken} : t.waiting.Perm s.waiting → t.flights.Perm s.flights →
    t.clock = s.clock → t.log = .called (.removeDevice token) :: s.log → Step settings w s worker .take t
  | finish {t : State} : t.waiting.Perm s.waiting → t.flights.Perm s.flights → t.clock = s.clock →
    t.log = s.log → Step settings w s worker .finish t

theorem Step.of_step {s t : State} {worker : Nat} {m : Move}
    (h : s.step settings w worker m = some t) : Step settings w s worker m t := by
  obtain ⟨k, r, hk, hstep, rfl⟩ := step_cases h
  have hsw := flatMap_perm (·.waiting) hk
  have hsf := flatMap_perm (·.flights) hk
  have htw := flatMap_set_perm r.1 (·.waiting) hk
  have htf := flatMap_set_perm r.1 (·.flights) hk
  cases hstep with
  | @start e rest he hlt =>
    rw [he] at hsw
    refine .start hsw htw (htf.trans ?_) rfl rfl
    refine List.Perm.trans ?_ (hsf.cons _).symm
    simp only [List.append_assoc]
    exact List.perm_middle
  | @turn position f out flights hf hready ho hp =>
    have hkf := (perm_eraseIdx hf).append_right ((s.workers.eraseIdx worker).flatMap (·.flights))
    refine .turn hk hf hready ho (htw.trans hsw.symm) (hsf.trans hkf) (htf.trans ?_) rfl rfl
    simpa using hp.append_right _
  | take => exact .take (htw.trans hsw.symm) (htf.trans hsf.symm) rfl rfl
  | finish => exact .finish (htw.trans hsw.symm) (htf.trans hsf.symm) rfl rfl

theorem step_eq {s : State} {worker : Nat} {m : Move} {k : Worker}
    {r : Worker × ClockedCache × List Happening} (hk : s.workers[worker]? = some k)
    (hr : k.step settings w s.clock m = some r) :
    s.step settings w worker m = some ⟨r.2.1, s.workers.set worker r.1, r.2.2 ++ s.log⟩ := by
  unfold step
  rw [hk]
  show (k.step settings w s.clock m >>= _) = _
  rw [hr]
  rfl

theorem workers_assign {s : State} {worker : Nat} {k : Worker} (h : s.workers[worker]? = some k)
    (job : Job) (number : Nat) :
    (s.assign worker job number).workers = s.workers.set worker (k.assign job number) := by
  obtain ⟨hlt, rfl⟩ := List.getElem?_eq_some_iff.1 h
  apply List.ext_getElem?
  intro i
  by_cases hi : worker = i
  · subst hi
    simp [assign, hlt]
  · simp [assign, hi]

theorem waiting_assign {s : State} {worker : Nat} (h : worker < s.workers.length) (job : Job)
    (number : Nat) :
    (s.assign worker job number).waiting.Perm (s.waiting ++ job.errands number) := by
  have hk := List.getElem?_eq_getElem h
  simp only [waiting, workers_assign hk job number]
  refine (flatMap_set_perm _ (·.waiting) hk).trans ?_
  refine List.Perm.trans ?_ ((flatMap_perm (·.waiting) hk).append_right _).symm
  simp only [Worker.assign, List.append_assoc]
  exact List.perm_append_comm.append_left _

theorem flights_assign {s : State} {worker : Nat} (h : worker < s.workers.length) (job : Job)
    (number : Nat) : (s.assign worker job number).flights.Perm s.flights := by
  have hk := List.getElem?_eq_getElem h
  simp only [flights, workers_assign hk job number]
  exact (flatMap_set_perm (s.workers[worker].assign job number) (·.flights) hk).trans
    (flatMap_perm (·.flights) hk).symm

end State

/-! ## Runs -/

/-- Something that happens to delivery workers. -/
inductive Act where
  | assign (worker : Nat) (job : Job) (number : Nat)
  /-- A worker makes a move; calls that start then are replied to as the world has it. -/
  | move (w : World) (worker : Nat) (m : Move)
  | pass (t : Nat)

namespace State

/-- What becomes of workers; none if it cannot happen. -/
def act (settings : Settings) (s : State) : Act → Option State
  | .assign worker job number =>
    if worker < s.workers.length then some (s.assign worker job number) else none
  | .move w worker m => s.step settings w worker m
  | .pass t => some (s.pass t)

/-- The states to which acts lead; the acts are given latest first. -/
def Run (settings : Settings) (s : State) : List Act → State → Prop := Trace (act settings) s

end State

end Herald.Delivery
