import Mathlib.Data.List.Perm.Basic

/-!
# Traces and logs

A trace is a way from one state to another: what was done, latest first, each act possible in the
state before it. A log holds what happened, latest first as well.

* `Trace.keeps`: what every act keeps holds along a trace.
* `trace_iff`: traces can be computed.
* `seen`: what is seen of the acts of a trace.
* `pick`: what a log says of one kind, oldest first.
-/

namespace Herald

/-! ## Traces -/

section

variable {σ α : Type} {step : σ → α → Option σ} {s t u : σ} {acts acts' : List α}

/-- The states to which acts lead; the acts are given latest first. -/
inductive Trace (step : σ → α → Option σ) (s : σ) : List α → σ → Prop
  | refl : Trace step s [] s
  | step {acts : List α} {t u : σ} (a : α) :
    Trace step s acts t → step t a = some u → Trace step s (a :: acts) u

/-- What every act keeps holds along a trace. -/
theorem Trace.keeps {P : List α → σ → Prop} (h : Trace step s acts t) (base : P [] s)
    (next : ∀ acts t a u, P acts t → step t a = some u → P (a :: acts) u) : P acts t := by
  induction h with
  | refl => exact base
  | step a _ e ih => exact next _ _ a _ ih e

theorem Trace.trans (h : Trace step s acts t) (h' : Trace step t acts' u) :
    Trace step s (acts' ++ acts) u := by
  induction h' with
  | refl => exact h
  | step a _ e ih => exact .step a ih e

/-- What becomes of a state by acts, given latest first. -/
def play (step : σ → α → Option σ) (s : σ) : List α → Option σ
  | [] => some s
  | a :: acts => (play step s acts).bind (step · a)

theorem trace_iff : Trace step s acts t ↔ play step s acts = some t := by
  constructor
  · intro h
    induction h with
    | refl => rfl
    | step a _ e ih => simp [play, ih, e]
  · induction acts generalizing t with
    | nil => rintro ⟨⟩; exact .refl
    | cons a acts ih =>
      intro h
      obtain ⟨u, hu, e⟩ := Option.bind_eq_some_iff.1 h
      exact .step a (ih hu) e

/-- What is seen of acts, latest first; `view` says what is seen of an act that is done in a state. -/
def seen {β : Type} (step : σ → α → Option σ) (view : σ → α → List β) (s : σ) : List α → List β
  | [] => []
  | a :: acts => (play step s acts).toList.flatMap (view · a) ++ seen step view s acts

theorem Trace.seen_cons {β : Type} {view : σ → α → List β} (h : Trace step s acts t) (a : α) :
    seen step view s (a :: acts) = view t a ++ seen step view s acts := by
  simp [seen, trace_iff.1 h]

/-- What is seen of acts that follow others is seen from the state to which those lead. -/
theorem Trace.seen_append {β : Type} {view : σ → α → List β} (h : Trace step s acts t)
    (acts' : List α) :
    seen step view s (acts' ++ acts) = seen step view t acts' ++ seen step view s acts := by
  have hplay (acts' : List α) : play step s (acts' ++ acts) = play step t acts' := by
    induction acts' with
    | nil => exact trace_iff.1 h
    | cons a acts' ih => exact congrArg (Option.bind · (step · a)) ih
  induction acts' with
  | nil => rfl
  | cons a acts' ih => simp [seen, hplay, ih]

/-- What is seen is seen of one of the acts. -/
theorem exists_of_mem_seen {β : Type} {view : σ → α → List β} {b : β}
    (h : b ∈ seen step view s acts) : ∃ t, ∃ a ∈ acts, b ∈ view t a := by
  induction acts with
  | nil => cases h
  | cons a acts ih =>
    rcases List.mem_append.1 h with h | h
    · obtain ⟨t, -, hb⟩ := List.mem_flatMap.1 h
      exact ⟨t, a, List.mem_cons_self .., hb⟩
    · obtain ⟨t, b, hm, hb⟩ := ih h
      exact ⟨t, b, List.mem_cons_of_mem _ hm, hb⟩

end

/-! ## Logs -/

section

variable {α β : Type} {f : α → Option β}

/-- What a log says of one kind, oldest first. -/
def pick (f : α → Option β) (log : List α) : List β := (log.filterMap f).reverse

@[simp] theorem pick_nil : pick f [] = [] := rfl

@[simp] theorem pick_cons (h : α) (log : List α) : pick f (h :: log) = pick f log ++ (f h).toList := by
  cases e : f h <;> simp [pick, e]

@[simp] theorem pick_append (new log : List α) : pick f (new ++ log) = pick f log ++ pick f new := by
  simp [pick]

theorem pick_eq_nil {log : List α} (h : ∀ a ∈ log, f a = none) : pick f log = [] := by
  simpa [pick] using h

theorem mem_pick {log : List α} {b : β} : b ∈ pick f log ↔ ∃ a ∈ log, f a = some b := by
  simp [pick]

/-- If keys differ, then an element is the only one with its key. -/
theorem filter_key [DecidableEq β] {key : α → β} {l : List α} (hn : (l.map key).Nodup) {a : α}
    (h : a ∈ l) : l.filter (key · = key a) = [a] := by
  induction l with
  | nil => cases h
  | cons b l ih =>
    obtain ⟨hb, hn⟩ := List.nodup_cons.1 hn
    rcases List.mem_cons.1 h with rfl | h
    · rw [List.filter_cons_of_pos (by simp), List.filter_eq_nil_iff.2 fun c hc => ?_]
      simpa using fun he : key c = key a => hb (he ▸ List.mem_map_of_mem hc)
    · have hne : key b ≠ key a := fun he => hb (he ▸ List.mem_map_of_mem h)
      rw [List.filter_cons_of_neg (by simpa using hne), ih hn h]

/-- An element and the others. -/
theorem perm_eraseIdx {l : List α} {a : α} {i : Nat} (h : l[i]? = some a) :
    l.Perm (a :: l.eraseIdx i) := by
  obtain ⟨hi, rfl⟩ := List.getElem?_eq_some_iff.1 h
  exact (List.getElem_cons_eraseIdx_perm hi).symm

end

end Herald
