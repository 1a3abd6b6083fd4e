import Herald.Pipeline.Run
import Herald.Proofs.Delivery.Plain
import Herald.Proofs.Pipeline.Rest
import Herald.Proofs.Pool.Relabel

/-!
# Pipelines that go on alike

Two pipelines are alike if they differ only in the numbers of messages and in what is known of
messages that came to nothing. Nobody looks at that, and so they stay alike whatever is done with
both of them.

* `State.Alike`: pipelines that are alike.
* `Alike.step`: they make the same moves, and stay alike.
* `Alike.handle`, `Alike.advance`, `Alike.stop`: they stay alike while they are let go on.
-/

namespace Herald

/-- Of two results of which the same is seen there are both, or none. -/
theorem cases_of_map_eq {α β γ : Type} {f : α → γ} {g : β → γ} {a : Option α} {b : Option β}
    (h : a.map f = b.map g) : a = none ∧ b = none ∨ ∃ x y, a = some x ∧ b = some y ∧ f x = g y := by
  cases a with
  | none => cases b with
    | none => exact .inl ⟨rfl, rfl⟩
    | some b => cases h
  | some a => cases b with
    | none => cases h
    | some b => exact .inr ⟨a, b, rfl, rfl, Option.some.inj h⟩

namespace Pipeline

variable {settings : Settings} {w : World} {s t : State}

/-- The job of a message without the number of the message. -/
def Order.plain (o : Order) : Order := { o with number := 0 }

def Draft.plain (d : Draft) : Draft := { d with number := 0 }

namespace State

/-- The pipeline without numbers, and without what is known of messages that came to nothing. -/
def plain (s : State) : State where
  drafts := s.drafts.map (·.plain)
  pool := s.pool.relabel (·.plain)
  delivery := s.delivery.plain

/-- The pipelines differ only in numbers, and in what is known of messages that came to nothing. -/
def Alike (s t : State) : Prop := s.plain = t.plain

/-! ## What is seen -/

@[simp] theorem now_plain : s.plain.now = s.now := rfl

theorem order?_plain (worker : Nat) :
    (s.plain.order? worker).map (·.job) = (s.order? worker).map (·.job) := by
  have hp : s.plain.pool.workers[worker]? = (s.pool.workers[worker]?).map (·.map (·.plain)) :=
    List.getElem?_map
  unfold order?
  rw [hp]
  cases s.pool.workers[worker]? with
  | none => rfl
  | some p => cases p <;> rfl

theorem done?_plain : s.plain.done? = s.done? := by
  have hd : s.plain.delivery.workers = s.delivery.workers.map (·.plain) := rfl
  unfold done?
  rw [hd, List.zipIdx_map, List.findSome?_map]
  congr 1
  funext k
  have ho : ((s.plain.order? k.2).map fun _ => k.2) = (s.order? k.2).map fun _ => k.2 := by
    have h := congrArg (Option.map fun _ => k.2) (s.order?_plain k.2)
    simpa only [Option.map_map, Function.comp_def] using h
  simp only [Function.comp, Prod.map, Delivery.Worker.isBusy_plain, id_eq, ho]

theorem next?_plain : s.plain.next? settings = s.next? settings := by
  have hf : s.plain.drafts.findIdx? (·.due ≤ s.plain.now) = s.drafts.findIdx? (·.due ≤ s.now) := by
    simp only [plain, List.findIdx?_map]
    rfl
  have hp : s.plain.pool.next? = s.pool.next? := Pool.State.next?_relabel _ s.pool
  have hd : s.plain.delivery.next? settings.delivery = s.delivery.next? settings.delivery :=
    Delivery.State.next?_plain settings.delivery s.delivery
  unfold next?
  rw [hf, hp, done?_plain, hd]

theorem due?_plain : s.plain.due? = s.due? := by
  simp [due?, plain, Function.comp_def, Draft.plain]

theorem isBusy_plain : s.plain.isBusy = s.isBusy := by
  have hp (p : Pool.Phase Order) : (p.map (·.plain)).job?.isSome = p.job?.isSome := by
    cases p with
    | waiting job | closed job => cases job <;> rfl
    | _ => rfl
  simp [isBusy, plain, List.any_map, Function.comp_def, hp]

theorem bound_plain : s.plain.bound w = s.bound w := by
  have ho (o : Order) : o.plain.bound w.delivery = o.bound w.delivery := by
    unfold Order.bound Order.plain
    rw [← Delivery.errands_plain o.job o.number, List.map_map]
    rfl
  have hd (d : Draft) : d.plain.bound w.delivery = d.bound w.delivery := by
    unfold Draft.bound Draft.plain
    cases d.result with
    | error outcome => rfl
    | ok job => exact ho ⟨d.number, job⟩
  have hh : (s.pool.dispatcher.map (·.plain)).hand.elim 0 (·.bound w.delivery) =
      s.pool.dispatcher.hand.elim 0 (·.bound w.delivery) := by
    cases s.pool.dispatcher with
    | holding o | offering o worker => exact ho o
    | _ => rfl
  have hp (p : Pool.Phase Order) : (p.map (·.plain)).job?.elim 0 (·.bound w.delivery) =
      p.job?.elim 0 (·.bound w.delivery) := by
    cases p with
    | waiting job | closed job =>
      cases job with
      | none => rfl
      | some o => exact ho o
    | busy o => exact ho o
    | _ => rfl
  simp [bound, plain, Function.comp_def, ho, hd, hh, hp]

/-! ## Moves -/

namespace Alike

theorem refl (s : State) : s.Alike s := rfl

theorem symm (h : s.Alike t) : t.Alike s := Eq.symm h

theorem drafts (h : s.Alike t) : s.drafts.map (·.plain) = t.drafts.map (·.plain) :=
  congrArg State.drafts h

theorem pool (h : s.Alike t) : s.pool.relabel (·.plain) = t.pool.relabel (·.plain) :=
  congrArg State.pool h

theorem delivery (h : s.Alike t) : s.delivery.plain = t.delivery.plain := congrArg State.delivery h

theorem now (h : s.Alike t) : s.now = t.now := congrArg (·.clock.now) h.delivery

theorem mk (hd : s.drafts.map (·.plain) = t.drafts.map (·.plain))
    (hp : s.pool.relabel (·.plain) = t.pool.relabel (·.plain))
    (hl : s.delivery.plain = t.delivery.plain) : s.Alike t := by
  unfold Alike State.plain
  rw [hd, hp, hl]

theorem next? (h : s.Alike t) : s.next? settings = t.next? settings := by
  rw [← next?_plain, h, next?_plain]

theorem due? (h : s.Alike t) : s.due? = t.due? := by
  rw [← due?_plain, h, due?_plain]

theorem isBusy (h : s.Alike t) : s.isBusy = t.isBusy := by
  rw [← isBusy_plain, h, isBusy_plain]

theorem bound (h : s.Alike t) : s.bound w = t.bound w := by
  rw [← bound_plain, h, bound_plain]

theorem atRest (h : s.Alike t) (rest : s.AtRest settings) : t.AtRest settings :=
  ⟨h.next?.symm.trans rest.next, h.isBusy.symm.trans rest.idle⟩

theorem enter (h : s.Alike t) (e : Event) : (s.enter settings w e).Alike (t.enter settings w e) := by
  refine mk ?_ h.pool ?_
  · simp only [State.enter, List.map_append, h.drafts, h.now]
    rfl
  · simp only [State.enter, Delivery.State.plain_append, h.delivery]

theorem pass (h : s.Alike t) (time : Nat) : State.Alike
    { s with delivery := s.delivery.pass time } { t with delivery := t.delivery.pass time } :=
  mk h.drafts h.pool (congrArg (fun d => d.pass time) h.delivery)

theorem submit {d d' : Draft} (h : s.Alike t) (hd : d.plain = d'.plain) :
    (s.submit d).Alike (t.submit d') := by
  have hr : d.plain.result = d'.plain.result := by rw [hd]
  have hr : d.result = d'.result := hr
  unfold State.submit
  rw [← hr]
  cases d.result with
  | error outcome => exact mk h.drafts h.pool h.delivery
  | ok job =>
    have hp := Pool.State.step_alike _ h.pool (.submit ⟨d.number, job⟩) (.submit ⟨d'.number, job⟩) rfl
    exact mk h.drafts (Option.some.inj hp) h.delivery

theorem begin (h : s.Alike t) (worker : Nat) : (s.begin worker).Alike (t.begin worker) := by
  have ho : (s.order? worker).map (·.job) = (t.order? worker).map (·.job) := by
    rw [← order?_plain, h, order?_plain]
  unfold State.begin
  rcases cases_of_map_eq ho with ⟨hs, ht⟩ | ⟨o, o', hs, ht, hj⟩
  · rw [hs, ht]
    exact h
  · rw [hs, ht]
    refine mk h.drafts h.pool ?_
    simp only [Delivery.State.assign_plain, hj, h.delivery]

/-- Pipelines that are alike make the same moves, and stay alike. -/
theorem step (settings : Settings) (w : World) (h : s.Alike t) (m : Move) :
    (s.step settings w m).map plain = (t.step settings w m).map plain := by
  cases m with
  | arrive payload =>
    refine congrArg some ?_
    unfold arrive
    split
    · exact h.enter _
    · exact mk h.drafts h.pool h.delivery
  | enter e => exact congrArg some (h.enter e)
  | submit position =>
    have hd : (s.drafts[position]?).map (·.plain) = (t.drafts[position]?).map (·.plain) := by
      rw [← List.getElem?_map, h.drafts, List.getElem?_map]
    simp only [State.step]
    rcases cases_of_map_eq hd with ⟨hs, ht⟩ | ⟨d, d', hs, ht, hdd⟩
    · rw [hs, ht]
    · have hdue : d.plain.due = d'.plain.due := by rw [hdd]
      have hdue : d.due = d'.due := hdue
      simp only [hs, ht, hdue, h.now]
      split
      · refine congrArg some (submit ?_ hdd)
        refine mk ?_ h.pool h.delivery
        rw [← List.eraseIdx_map, h.drafts, List.eraseIdx_map]
      · rfl
  | stop =>
    have hp := Pool.State.step_alike _ h.pool .stop .stop rfl
    simp only [State.step]
    rcases cases_of_map_eq hp with ⟨hs, ht⟩ | ⟨p, q, hs, ht, hpq⟩
    · rw [hs, ht]; rfl
    · rw [hs, ht]
      exact congrArg some (mk h.drafts hpq h.delivery)
  | pool m =>
    have hp := Pool.State.step_alike _ h.pool m m rfl
    simp only [State.step]
    split
    · rcases cases_of_map_eq hp with ⟨hs, ht⟩ | ⟨p, q, hs, ht, hpq⟩
      · rw [hs, ht]
      · have hpq : State.Alike { s with pool := p } { t with pool := q } := mk h.drafts hpq h.delivery
        rw [hs, ht]
        cases m with
        | start worker | look worker => exact congrArg some (hpq.begin worker)
        | _ => exact congrArg some hpq
    · rfl
  | finish worker =>
    have hp := Pool.State.step_alike _ h.pool (.finish worker) (.finish worker) rfl
    have hk : (s.delivery.workers[worker]?).map (·.plain) =
        (t.delivery.workers[worker]?).map (·.plain) := by
      rw [← List.getElem?_map, ← List.getElem?_map]
      exact congrArg (·.workers[worker]?) h.delivery
    simp only [State.step]
    rcases cases_of_map_eq hk with ⟨hs, ht⟩ | ⟨k, k', hs, ht, hkk⟩
    · rw [hs, ht]
    · have hb : k.isBusy = k'.isBusy := by
        rw [← Delivery.Worker.isBusy_plain, hkk, Delivery.Worker.isBusy_plain]
      simp only [hs, ht, hb]
      split
      · rfl
      · rcases cases_of_map_eq hp with ⟨hs, ht⟩ | ⟨p, q, hs, ht, hpq⟩
        · rw [hs, ht]; rfl
        · rw [hs, ht]
          exact congrArg some (mk h.drafts hpq h.delivery)
  | deliver worker m =>
    have hd : (s.delivery.step settings.delivery w.delivery worker m).map (·.plain) =
        (t.delivery.step settings.delivery w.delivery worker m).map (·.plain) := by
      rw [← Delivery.State.step_plain, h.delivery, Delivery.State.step_plain]
    simp only [State.step]
    rcases cases_of_map_eq hd with ⟨hs, ht⟩ | ⟨d, d', hs, ht, hdd⟩
    · rw [hs, ht]; rfl
    · rw [hs, ht]
      exact congrArg some (mk h.drafts h.pool hdd)
  | pass time => exact congrArg some (h.pass time)

/-! ## Runs -/

theorem runFor {waits : State → Nat → Bool} (hw : ∀ {s t}, s.Alike t → waits s = waits t) (n : Nat)
    (h : s.Alike t) : (s.runFor settings w waits n).Alike (t.runFor settings w waits n) := by
  induction n generalizing s t with
  | zero => exact h
  | succ n ih =>
    unfold State.runFor
    rw [← h.next?, ← h.due?]
    split
    · next m _ =>
      rcases cases_of_map_eq (h.step settings w m) with
        ⟨hs, ht⟩ | ⟨s', t', hs, ht, hst⟩
      · rw [hs, ht]; exact h
      · rw [hs, ht]; exact ih hst
    · split
      · rw [hw h]
        split
        · exact ih (h.pass _)
        · exact h
      · exact h

theorem run {waits : State → Nat → Bool} (hw : ∀ {s t}, s.Alike t → waits s = waits t)
    (h : s.Alike t) : (s.run settings w waits).Alike (t.run settings w waits) := by
  unfold State.run
  rw [h.bound]
  exact h.runFor hw _

theorem finish (h : s.Alike t) : (s.finish settings w).Alike (t.finish settings w) :=
  h.run fun h => funext fun _ => h.isBusy

theorem handle (h : s.Alike t) (payload : List UInt8) :
    (s.handle settings w payload).Alike (t.handle settings w payload) :=
  finish (Option.some.inj (h.step settings w (.arrive payload)))

theorem advance (h : s.Alike t) (ms : Nat) : (s.advance settings w ms).Alike (t.advance settings w ms) := by
  unfold State.advance
  rw [h.now]
  exact pass (h.run fun _ => rfl) _

theorem stop (h : s.Alike t) : (s.stop settings w).Alike (t.stop settings w) := by
  refine finish ?_
  rcases cases_of_map_eq (h.step settings w .stop) with
    ⟨hs, ht⟩ | ⟨s', t', hs, ht, hst⟩
  · rw [hs, ht]; exact h
  · rw [hs, ht]; exact hst

end Alike

end State

end Pipeline

end Herald
