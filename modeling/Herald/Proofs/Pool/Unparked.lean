import Herald.Proofs.Pool.Ledger
import Herald.Proofs.Pool.Relabel

/-!
# Nobody needs to wait outside

A job that waits outside the intake could as well be submitted later, at the moment when it comes in.
No other move of a pool depends on who waits outside.

* `State.unparked`: a pool outside which nobody waits.
* `State.submit_unparked`, `State.enter_unparked`: a job that comes in sooner or later comes in at once.
* `State.step_unparked`: a move by which no job comes in.
-/

namespace Herald

/-! ## Channels -/

namespace Channel

variable {α : Type} {c d : Channel α} {a : α} {t : Nat}

/-- The channel as if nobody had ever waited outside. -/
def unparked (c : Channel α) : Channel α :=
  { c with waiting := [], ticket := 0, length_items_le := c.length_items_le }

theorem receive?_unparked : c.unparked.receive? = c.receive?.map fun r => (r.1, r.2.unparked) := by
  obtain ⟨capacity, items, waiting, ticket, isClosed, h⟩ := c
  cases items <;> rfl

theorem send?_unparked (ho : c.isClosed = false) (h : c.items.length < c.capacity) :
    c.unparked.send? a = some (none, (c.put a h).unparked) := by
  have hclosed : ¬ c.unparked.isClosed = true := Bool.eq_false_iff.1 ho
  have hfree : c.unparked.waiting.length < c.unparked.free := Nat.sub_pos_of_lt h
  unfold send?
  rw [if_neg hclosed, dif_pos hfree]
  rfl

theorem put_of_send? (h : c.send? a = some (none, d)) : ∃ hp, d = c.put a hp := by
  unfold send? at h
  split at h
  · cases h
  · split at h <;> cases h
    exact ⟨_, rfl⟩

theorem unparked_of_park (h : c.send? a = some (some t, d)) : d.unparked = c.unparked := by
  unfold send? at h
  split at h
  · cases h
  · split at h <;> cases h
    rfl

theorem put_of_enter? (h : c.enter? t = some (a, d)) : ∃ hp, d.unparked = (c.put a hp).unparked := by
  unfold enter? at h
  split at h
  · next hp =>
    split at h <;> cases h
    exact ⟨hp, rfl⟩
  · cases h

end Channel

/-! ## Pools -/

namespace Pool

variable {J : Type}

/-- A job comes in with the move, or may do so. -/
def Move.isEntry : Move J → Bool
  | .submit _ | .enter _ => true
  | _ => false

namespace State

variable {s : State J} {job : J} {intake : Channel J}

/-- The pool as if nobody had ever waited outside. -/
def unparked (s : State J) : State J := { s with intake := s.intake.unparked }

section

variable (s : State J) (i : Nat) (p : Phase J) (h : Happening J)

@[simp] theorem intake_unparked : s.unparked.intake = s.intake.unparked := rfl

@[simp] theorem registry_unparked : s.unparked.registry = s.registry := rfl

@[simp] theorem dispatcher_unparked : s.unparked.dispatcher = s.dispatcher := rfl

@[simp] theorem workers_unparked : s.unparked.workers = s.workers := rfl

@[simp] theorem shutdown_unparked : s.unparked.shutdown = s.shutdown := rfl

@[simp] theorem isEnding_unparked : s.unparked.isEnding = s.isEnding := rfl

@[simp] theorem places_unparked : s.unparked.places = s.places := rfl

@[simp] theorem dispatcherEnded_unparked : s.unparked.dispatcherEnded = s.dispatcherEnded := rfl

@[simp] theorem workersEnded_unparked : s.unparked.workersEnded = s.workersEnded := rfl

end

/-- A job comes in at once if there is room for it. -/
theorem submit_of_room (ho : s.intake.isClosed = false) (h : s.intake.items.length < s.intake.capacity) :
    s.unparked.submit job =
      ({ s with intake := s.intake.put job h } : State J).unparked.note (.accepted job) := by
  have hs : s.unparked.intake.send? job = some (none, (s.intake.put job h).unparked) :=
    Channel.send?_unparked ho h
  unfold submit
  rw [hs]
  rfl

/-- What comes in at once does so whoever waits. -/
theorem submit_unparked (h : s.intake.send? job = some (none, intake)) :
    s.unparked.submit job = ({ s with intake } : State J).unparked.note (.accepted job) := by
  obtain ⟨hroom, rfl⟩ := Channel.put_of_send? h
  exact submit_of_room (Channel.send?_keeps h).2.2 hroom

/-- What comes in after it has waited would come in at once. -/
theorem enter_unparked {t : Nat} (ho : s.intake.isClosed = false)
    (h : s.intake.enter? t = some (job, intake)) :
    s.unparked.submit job = ({ s with intake } : State J).unparked.note (.accepted job) := by
  obtain ⟨hroom, hi⟩ := Channel.put_of_enter? h
  rw [submit_of_room ho hroom]
  unfold unparked
  rw [hi]

/-- No other move depends on who waits outside. -/
theorem step_unparked (s : State J) {m : Move J} (hm : m.isEntry = false) :
    (s.unparked.step m).map forget = (s.step m).map fun t => t.unparked.forget := by
  cases m with
  | submit | enter => cases hm
  | stop | abandon =>
    simp only [step, isEnding_unparked]
    by_cases h : s.isEnding = true <;> simp only [h, if_true] <;> rfl
  | decide i =>
    simp only [step, workers_unparked, shutdown_unparked]
    split
    · by_cases h : s.shutdown = .stopped <;> simp only [h, if_true] <;> rfl
    · rfl
  | ask i =>
    simp only [step, workers_unparked, dispatcherEnded_unparked, registry_unparked, places_unparked]
    split
    · by_cases hd : s.dispatcherEnded = true <;> by_cases hr : s.registry.length < s.places <;>
        simp only [hd, hr, if_true] <;> rfl
    · rfl
  | start i =>
    simp only [step, workers_unparked, dispatcherEnded_unparked]
    split
    · rfl
    · by_cases h : s.dispatcherEnded = true <;> simp only [h, if_true] <;> rfl
    · rfl
  | withdraw i =>
    simp only [step, workers_unparked, isEnding_unparked]
    split
    · by_cases h : s.isEnding = true <;> simp only [h, if_true] <;> rfl
    · rfl
  | look i | finish i | crash i =>
    simp only [step, workers_unparked]
    split <;> rfl
  | receive =>
    simp only [step, dispatcher_unparked, intake_unparked, Channel.receive?_unparked]
    cases s.dispatcher <;> cases s.intake.receive? <;> rfl
  | take =>
    simp only [step, dispatcher_unparked, registry_unparked]
    split <;> rfl
  | hand =>
    simp only [step, dispatcher_unparked, workers_unparked]
    split
    · next job i _ =>
      by_cases h : (s.workers[i]?).any (·.isVacant) = true <;> simp only [h, if_true] <;> rfl
    · rfl
  | give =>
    simp only [step, dispatcher_unparked, isEnding_unparked, registry_unparked, workersEnded_unparked]
    split
    · by_cases h : s.isEnding = true <;> simp only [h, if_true] <;> rfl
    · by_cases h : (s.isEnding || (s.registry.isEmpty && s.workersEnded)) = true <;>
        simp only [h, if_true] <;> rfl
    · rfl
  | close =>
    simp only [step, dispatcher_unparked]
    split <;> rfl
  | drain =>
    simp only [step, dispatcher_unparked, intake_unparked, Channel.receive?_unparked]
    cases s.dispatcher <;> cases s.intake.receive? <;> rfl

end State

/-- Whoever waits outside goes on waiting unless a job comes in, or all of them are turned away. -/
theorem Step.waiting {s t : State J} {m : Move J} (h : Step s m t) (hm : m.isEntry = false) :
    t.intake.waiting = s.intake.waiting ∨
      t.intake.waiting = [] ∧ ∀ w ∈ s.intake.waiting, w.2 ∈ t.refused := by
  cases h with
  | accept | park | refuse | enter => cases hm
  | receive _ e | drain _ e => exact .inl (Channel.receive?_cases e).2.1
  | close =>
    refine .inr ⟨rfl, fun w hw => ?_⟩
    show w.2 ∈ pick Happening.refused? (_ ++ s.log)
    rw [pick_append, refused_refusals]
    exact List.mem_append_right _ (List.mem_map_of_mem hw)
  | _ => exact .inl rfl

end Pool

end Herald
