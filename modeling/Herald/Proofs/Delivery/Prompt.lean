import Herald.Proofs.Delivery.Attempts
import Herald.Proofs.Delivery.Rest

/-!
# Prompt runs

Workers that are not held up do at once what can be done: time passes only when nothing can happen
without it, and only up to the next moment at which a call ends. So every call under way is taken note
of at the very moment at which it ends.

* `State.prompt`: the acts of workers that are not held up.
* `Stage.Next`: what a turn makes of the calls of a stage.
* `State.OnTime`: no call under way is overdue; `State.OnTime.prompt` keeps it.
* `State.finish_prompt`: workers that are not held up come to have no job.
-/

namespace Herald.Delivery

variable {settings : Settings} {w : World} {s t : State} {acts : List Act}

namespace State

/-- What becomes of workers that are not held up. -/
def prompt (settings : Settings) (s : State) : Act → Option State
  | .pass time =>
    if (s.next? settings).isNone && s.due?.all (time ≤ ·) then some (s.pass time) else none
  | a => s.act settings a

/-- The states to which workers come that are not held up. -/
def Prompt (settings : Settings) (s : State) : List Act → State → Prop := Trace (prompt settings) s

theorem act_of_prompt {a : Act} (h : s.prompt settings a = some t) : s.act settings a = some t := by
  cases a with
  | pass time =>
    simp only [prompt] at h
    split at h
    · exact h
    · cases h
  | assign | move => exact h

theorem Prompt.run (run : Prompt settings s acts t) : Run settings s acts t := by
  induction run with
  | refl => exact .refl
  | step a _ e ih => exact .step a ih (act_of_prompt e)

/-- Time passes when nothing can happen without it, and up to the end of a call at most. -/
theorem prompt_pass {time : Nat} (h : s.prompt settings (.pass time) = some t) :
    s.next? settings = none ∧ (∀ k ∈ s.workers, ∀ d ∈ k.dues, time ≤ d) ∧ t = s.pass time := by
  simp only [prompt] at h
  split at h
  · next hp =>
    cases h
    obtain ⟨hn, hd⟩ := Bool.and_eq_true_iff.1 hp
    refine ⟨Option.isNone_iff_eq_none.1 hn, fun k hk d hm => ?_, rfl⟩
    have hmem : d ∈ s.workers.flatMap (·.dues) := List.mem_flatMap.2 ⟨k, hk, hm⟩
    cases hdue : s.due? with
    | none =>
      have hnil := List.min?_eq_none_iff.1 hdue
      rw [hnil] at hmem
      cases hmem
    | some due =>
      rw [hdue] at hd
      exact Nat.le_trans (of_decide_eq_true hd) ((List.min?_eq_some_iff.1 hdue).2 d hmem)
  · cases h

end State

/-! ## The calls of a stage -/

namespace Stage

/-- How many stages of calls are still to come after the calls of a stage. -/
def rest : Stage → Nat
  | fresh => 5
  | checking _ _ => 4
  | lookingUp _ => 3
  | sending _ => 2
  | recording _ _ => 1
  | storing _ _ => 0

/-- What a turn makes of a stage: another stage follows, the calls of which have just started, or some
of the sends go on. -/
inductive Next (limit : Limit) (now : Nat) (stage : Stage) : Stage → Prop
  | follows {next : Stage} : next.rest < stage.rest →
    (∀ d ∈ next.dues, now ≤ d ∧ d ≤ now + limit.expiry) → Next limit now stage next
  | goes_on {next : Stage} : next.rest = stage.rest → next.dues ⊆ stage.dues → Next limit now stage next

end Stage

section

variable {e : Errand} {s : Scene} {stage next : Stage}

/-- A call that has just started ends within its limit. -/
theorem Pending.due_start {ε α : Type} [OfFailure ε] (now : Nat) (limit : Limit) (operation : String)
    (r : Reply ε α) :
    now ≤ (Pending.start now limit operation r).due ∧
      (Pending.start now limit operation r).due ≤ now + limit.expiry :=
  ⟨Nat.le_add_right .., Pending.due_start_le ..⟩

namespace Send

/-- A send that goes on waits for the same call as before, or for none. -/
theorem due?_proceed {index d : Nat} {token : DeviceToken} {send : Send}
    (h : (send.proceed e index token s).1.due? = some d) : send.due? = some d := by
  cases send with
  | flying call =>
    simp only [proceed] at h
    split at h
    · split at h
      · unfold park at h
        split at h <;> cases h
      · cases h
    · exact h
  | parked ticket =>
    simp only [proceed] at h
    split at h <;> cases h
  | ended => cases h

theorem dues_proceedAll (e : Errand) (index : Nat) (sends : List (DeviceToken × Send)) (s : Scene) :
    (Stage.sending (proceedAll e index sends s).1).dues ⊆ (Stage.sending sends).dues := by
  induction sends generalizing index s with
  | nil => exact List.Subset.refl _
  | cons p sends ih =>
    obtain ⟨token, send⟩ := p
    intro d hd
    obtain ⟨q, hq, hd⟩ := List.mem_filterMap.1 hd
    rcases List.mem_cons.1 hq with rfl | hq
    · exact List.mem_filterMap.2 ⟨_, List.mem_cons_self .., due?_proceed hd⟩
    · obtain ⟨p, hp, hd⟩ := List.mem_filterMap.1 (ih (index + 1) _ (List.mem_filterMap.2 ⟨q, hq, hd⟩))
      exact List.mem_filterMap.2 ⟨p, List.mem_cons_of_mem _ hp, hd⟩

theorem dues_beginAll (settings : Settings) (w : World) (e : Errand) (index : Nat)
    (tokens : List DeviceToken) (s : Scene) :
    ∀ d ∈ (Stage.sending (beginAll settings w e index tokens s).1).dues,
      s.now ≤ d ∧ d ≤ s.now + settings.limit.expiry := by
  induction tokens generalizing index s with
  | nil => exact fun _ hd => absurd hd List.not_mem_nil
  | cons token tokens ih =>
    intro d hd
    obtain ⟨q, hq, hd⟩ := List.mem_filterMap.1 hd
    rcases List.mem_cons.1 hq with rfl | hq
    · cases due?_proceed hd
      exact Pending.due_start ..
    · have hn := ih (index + 1) _ d (List.mem_filterMap.2 ⟨q, hq, hd⟩)
      rwa [now_proceed] at hn

end Send

theorem next_lookUp (h : (lookUp settings w e s).1 = some next) (hr : 3 < stage.rest) :
    stage.Next settings.limit s.now next := by
  cases h
  exact .follows hr fun d hd => List.mem_singleton.1 hd ▸ Pending.due_start ..

theorem next_store (h : (store settings w e s).1 = some next) (hr : 0 < stage.rest) :
    stage.Next settings.limit s.now next := by
  unfold store at h
  split at h
  · cases h
    exact .follows hr fun d hd => List.mem_singleton.1 hd ▸ Pending.due_start ..
  · cases h

theorem next_record (h : (record settings w e s).1 = some next) (hr : 1 < stage.rest) :
    stage.Next settings.limit s.now next := by
  unfold record at h
  split at h
  · exact next_store h (Nat.lt_of_succ_lt hr)
  · cases h
    exact .follows hr fun d hd => List.mem_singleton.1 hd ▸ Pending.due_start ..

/-- The calls of the stage to which a turn leads. -/
theorem next_proceed (h : (proceed settings w e s stage).1 = some next) :
    stage.Next settings.limit s.now next := by
  cases stage with
  | fresh =>
    simp only [proceed, check] at h
    split at h
    · exact next_lookUp h (show 3 < 5 by decide)
    · cases h
      exact .follows (show 4 < 5 by decide) fun d hd => List.mem_singleton.1 hd ▸ Pending.due_start ..
  | checking window call =>
    simp only [proceed] at h
    split at h
    · exact next_lookUp (s := s.note _) h (show 3 < 4 by decide)
    · cases h
  | lookingUp call =>
    simp only [proceed] at h
    split at h
    · cases h
    · cases h
      exact .follows (show 2 < 3 by decide) (Send.dues_beginAll settings w e 0 _ _)
  | sending sends =>
    simp only [proceed] at h
    split at h
    · exact next_record h (show 1 < 2 by decide)
    · cases h
      exact .goes_on rfl (Send.dues_proceedAll ..)
  | recording window call =>
    simp only [proceed] at h
    split at h
    · exact next_store (s := s.write _) h (show 0 < 1 by decide)
    · exact next_store h (show 0 < 1 by decide)
  | storing entry call =>
    simp only [proceed] at h
    split at h <;> cases h

end

/-! ## No call is overdue -/

/-- No call under way is overdue. -/
def State.OnTime (s : State) : Prop := ∀ f ∈ s.flights, ∀ d ∈ f.stage.dues, s.clock.now ≤ d

namespace State.OnTime

theorem of_idle (h : s.flights = []) : s.OnTime := fun _ hf => absurd (h ▸ hf) List.not_mem_nil

theorem step {worker : Nat} {m : Move} (o : s.OnTime) (h : s.step settings w worker m = some t) :
    t.OnTime := by
  have hnow := State.now_step h
  intro f hf d hd
  rw [hnow]
  cases State.Step.of_step h with
  | start _ _ htf =>
    rcases List.mem_cons.1 (htf.mem_iff.1 hf) with rfl | hf
    · cases hd
    · exact o f hf d hd
  | @turn _ position k g rest out hk hg hr ho _ hsf htf =>
    have hg : g ∈ s.flights := hsf.mem_iff.2 (List.mem_cons_self ..)
    rcases List.mem_append.1 (htf.mem_iff.1 hf) with hf | hf
    · obtain ⟨stage, hstage, rfl⟩ := List.mem_map.1 hf
      cases next_proceed (congrArg Prod.fst ho |>.trans (Option.mem_toList.1 hstage)) with
      | follows _ hdues => exact (hdues d hd).1
      | goes_on _ hdues => exact o g hg d (hdues hd)
    · exact o f (hsf.mem_iff.2 (List.mem_cons_of_mem _ hf)) d hd
  | take _ htf | finish _ htf => exact o f (htf.mem_iff.1 hf) d hd

theorem prompt {a : Act} (o : s.OnTime) (h : s.prompt settings a = some t) : t.OnTime := by
  cases a with
  | assign worker job number =>
    simp only [State.prompt, State.act, Option.ite_none_right_eq_some, Option.some.injEq] at h
    obtain ⟨hlt, rfl⟩ := h
    exact fun f hf => o f ((State.flights_assign hlt job number).mem_iff.1 hf)
  | move w worker m => exact o.step h
  | pass time =>
    obtain ⟨-, hd, rfl⟩ := State.prompt_pass h
    intro f hf d hm
    obtain ⟨k, hk, hf'⟩ := List.mem_flatMap.1 hf
    have hmem : d ∈ k.dues := List.mem_append_left _ (List.mem_flatMap.2 ⟨f, hf', hm⟩)
    exact Nat.max_le.2 ⟨o f hf d hm, hd k hk d hmem⟩

end State.OnTime

/-- Along a run of workers that are not held up, no call comes to be overdue. -/
theorem State.Prompt.onTime (run : State.Prompt settings s acts t) (o : s.OnTime) : t.OnTime :=
  Trace.keeps (P := fun _ t => t.OnTime) run o fun _ _ _ _ o e => o.prompt e

/-! ## Until no worker has a job -/

namespace State

/-- Workers that are run as long as one of them has a job are not held up, and they come to have none. -/
theorem finish_prompt (w : World) (q : s.Queued) : ∃ acts, Prompt settings s acts (s.finish settings w) ∧
    (s.finish settings w).isBusy = false ∧ ∀ a ∈ acts, a.job? = none := by
  have hrun (n : Nat) (s : State) (q : s.Queued) (hl : s.left w < n) :
      ∃ acts, Prompt settings s acts (s.runFor settings w (fun s _ => s.isBusy) n) ∧
        (s.runFor settings w (fun s _ => s.isBusy) n).isBusy = false ∧ ∀ a ∈ acts, a.job? = none := by
    induction n generalizing s with
    | zero => exact absurd hl (Nat.not_lt_zero _)
    | succ n ih =>
      have hgo {a : Act} {t : State} (he : s.prompt settings a = some t) (ha : a.job? = none)
          (hlt : t.left w < s.left w) :
          ∃ acts, Prompt settings s acts (t.runFor settings w (fun s _ => s.isBusy) n) ∧
            (t.runFor settings w (fun s _ => s.isBusy) n).isBusy = false ∧ ∀ a ∈ acts, a.job? = none := by
        obtain ⟨acts, run, hb, hj⟩ := ih t (q.act (act_of_prompt he)) (by omega)
        refine ⟨acts ++ [a], (Trace.step a .refl he).trans run, hb, fun b hm => ?_⟩
        rcases List.mem_append.1 hm with hm | hm
        · exact hj b hm
        · exact List.mem_singleton.1 hm ▸ ha
      rw [runFor]
      cases hn : s.next? settings with
      | some p =>
        obtain ⟨worker, m⟩ := p
        obtain ⟨t, ht⟩ := exists_step_of_next? (w := w) hn
        simp only [ht]
        exact hgo (a := .move w worker m) ht rfl (left_step ht)
      | none =>
        cases hd : s.due? with
        | none => exact ⟨[], .refl, not_busy_of_next? w q hn hd, fun _ h => absurd h List.not_mem_nil⟩
        | some time =>
          cases hb : s.isBusy with
          | false => exact ⟨[], .refl, hb, fun _ h => absurd h List.not_mem_nil⟩
          | true =>
            have he : s.prompt settings (.pass time) = some (s.pass time) := by
              simp [prompt, hn, hd]
            exact hgo he rfl (left_pass w hn hd).2
  exact hrun _ s q (left_lt_bound w s)

end State

end Herald.Delivery
