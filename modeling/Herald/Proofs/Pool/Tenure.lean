import Herald.Proofs.Pool.Ledger

/-!
# What workers do with their jobs

* `Balanced`: two books that differ by what the phases of the workers say.
* `Tenure`: each worker starts what it is handed and finishes what it starts, in that order, but
  for the one job that it has. `Tenure.step` keeps it.
-/

namespace Herald.Pool

variable {J : Type} {s t : State J} {m : Move J}

open Happening

/-! ## Two books and a phase -/

/-- One book says about each worker what another one says, and then `left` of the worker's phase. -/
def Balanced (f g : Happening J → Option (Nat × J)) (left : Phase J → Option J) (s : State J) : Prop :=
  ∀ i, ofWorker i (pick f s.log) = ofWorker i (pick g s.log) ++ (s.workers[i]?.bind left).toList

namespace Balanced

variable {f g : Happening J → Option (Nat × J)} {left : Phase J → Option J}
  {new : List (Happening J)}

theorem create (size capacity : Nat) (h : left .deciding = none) :
    Balanced f g left (State.create size capacity) := by
  intro i
  have hn : (List.replicate size Phase.deciding)[i]?.bind left = none := by
    rw [List.getElem?_replicate]
    split <;> simp [h]
  show [] = [] ++ ((List.replicate size Phase.deciding)[i]?.bind left).toList
  rw [hn]; rfl

/-- A worker comes from one phase into another, and what is written down is about it alone. -/
theorem turn {i : Nat} {p q : Phase J} (b : Balanced f g left s) (h : s.workers[i]? = some p)
    (hw : t.workers = (s.put i q).workers) (hl : t.log = new ++ s.log)
    (own : ∀ k, k ≠ i → ofWorker k (pick f new) = [] ∧ ofWorker k (pick g new) = [])
    (here : (left p).toList ++ ofWorker i (pick f new) =
      ofWorker i (pick g new) ++ (left q).toList) : Balanced f g left t := by
  intro k
  rw [hl, hw, State.bind_put left h q, pick_append, pick_append, ofWorker_append, ofWorker_append,
    b k]
  by_cases hk : k = i
  · subst hk
    rw [if_pos rfl, h, Option.bind_some, List.append_assoc, here, List.append_assoc]
  · obtain ⟨hf, hg⟩ := own k hk
    rw [if_neg hk, hf, hg, List.append_nil, List.append_nil]

/-- What is written down is about no worker. -/
theorem others (b : Balanced f g left s) (hw : t.workers = s.workers) (hl : t.log = new ++ s.log)
    (hf : pick f new = []) (hg : pick g new = []) : Balanced f g left t := by
  intro k
  rw [hl, hw, pick_append, pick_append, hf, hg, List.append_nil, List.append_nil]
  exact b k

/-- What one book lacks is what the phases say. -/
theorem perm (b : Balanced f g left s) : (pick f s.log).Perm (pick g s.log ++ s.each left) :=
  perm_of_ofWorker fun i => by rw [b i, ofWorker_append, State.ofWorker_each]

end Balanced

/-! ## Workers -/

/-- How the books agree with the phases of the workers. -/
structure Tenure (s : State J) : Prop where
  held : Balanced handed? finished? Phase.held? s
  begun : Balanced started? finished? Phase.begun? s
  broken : Balanced crashed? (fun _ => none) Phase.broken? s

namespace Tenure

theorem create (size capacity : Nat) : Tenure (State.create size capacity : State J) :=
  ⟨.create _ _ rfl, .create _ _ rfl, .create _ _ rfl⟩

theorem started_eq (e : Tenure s) {i : Nat} {p : Phase J} (h : s.workers[i]? = some p) :
    ofWorker i s.started = ofWorker i s.finished ++ p.begun?.toList := by
  have hb := e.begun i
  rw [h] at hb
  exact hb

theorem crashed_eq (e : Tenure s) {i : Nat} {p : Phase J} (h : s.workers[i]? = some p) :
    ofWorker i s.crashed = p.broken?.toList := by
  have hb := e.broken i
  rw [h, show pick (fun _ => none) s.log = ([] : List (Nat × J)) by simp [pick]] at hb
  exact hb

/-- What was handed to workers is what they have finished and what they hold. -/
theorem handed_perm (e : Tenure s) : s.handed.Perm (s.finished ++ s.each Phase.held?) := e.held.perm

/-- What workers have started is what they have finished and what they are at. -/
theorem started_perm (e : Tenure s) : s.started.Perm (s.finished ++ s.each Phase.begun?) :=
  e.begun.perm

/-- A worker starts the jobs that it was handed, in that order. -/
theorem started_le_handed (e : Tenure s) (i : Nat) :
    ofWorker i s.started <+: ofWorker i s.handed := by
  show ofWorker i (pick started? s.log) <+: ofWorker i (pick handed? s.log)
  rw [e.begun i, e.held i, List.prefix_append_right_inj]
  cases s.workers[i]? with
  | none => exact List.prefix_rfl
  | some p =>
    cases p with
    | busy | crashed => exact List.prefix_rfl
    | _ => exact List.nil_prefix

theorem started_subperm (e : Tenure s) : s.started.Subperm s.handed :=
  subperm_of_ofWorker fun i => (e.started_le_handed i).sublist

section

attribute [local simp] handed? started? finished? crashed? Phase.held? Phase.begun? Phase.broken?

theorem step (e : Tenure s) (h : Step s m t) : Tenure t := by
  cases h with
  | accept | refuse | enter | drop | drain =>
    have hl (h : Happening J) : h :: s.log = [h] ++ s.log := rfl
    exact ⟨e.held.others rfl (hl _) rfl rfl, e.begun.others rfl (hl _) rfl rfl,
      e.broken.others rfl (hl _) rfl rfl⟩
  | stop | abandon | park | receive | take | handBack | give | drained =>
    exact ⟨e.held, e.begun, e.broken⟩
  | close =>
    have hn {f : Happening J → Option (Nat × J)} (hf : ∀ job, f (.refused job) = none) :=
      pick_refusals hf s.intake.waiting
    exact ⟨e.held.others rfl rfl (hn fun _ => rfl) (hn fun _ => rfl),
      e.begun.others rfl rfl (hn fun _ => rfl) (hn fun _ => rfl),
      e.broken.others rfl rfl (hn fun _ => rfl) (hn fun _ => rfl)⟩
  | goOn h | leave h | register h | unheard h | forgotten h | withdraw h | findNone h =>
    have hl : s.log = [] ++ s.log := rfl
    exact ⟨e.held.turn h rfl hl (fun _ _ => ⟨rfl, rfl⟩) (by simp),
      e.begun.turn h rfl hl (fun _ _ => ⟨rfl, rfl⟩) (by simp),
      e.broken.turn h rfl hl (fun _ _ => ⟨rfl, rfl⟩) (by simp)⟩
  | start h | find h | finish h | crash h | hand _ h =>
    have hl (h : Happening J) : h :: s.log = [h] ++ s.log := rfl
    exact ⟨e.held.turn h rfl (hl _) (fun k hk => by simp [Ne.symm hk]) (by simp),
      e.begun.turn h rfl (hl _) (fun k hk => by simp [Ne.symm hk]) (by simp),
      e.broken.turn h rfl (hl _) (fun k hk => by simp [Ne.symm hk]) (by simp)⟩

end

end Tenure

end Herald.Pool
