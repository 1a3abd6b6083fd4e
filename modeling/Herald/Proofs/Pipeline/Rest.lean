import Herald.Pipeline.Run
import Herald.Proofs.Delivery.Rest
import Herald.Proofs.Pipeline.Causes
import Herald.Proofs.Pool.Rest

/-!
# The pipeline comes to rest

How much is left of the messages in a pipeline is a number that every move lessens, and so does the
time up to the next end of something. So what is let happen goes on to the end: afterwards no message
is on its way, nothing can be done, and it is known what has become of every message.

* `State.left`: how much is left; `State.left_le_bound`: it is no more than the bound of a run.
* `State.Run.finish`: what `finish` makes of a pipeline is at rest.
* `State.Run.settles`: at rest every message has come to something.
-/

namespace Herald.Pipeline

open Pool (submissions)

variable {settings : Settings} {w : World} {s t : State} {m : Move} {acts : List (World × Move)}
  {size capacity sinkCapacity : Nat}

/-! ## How much is left -/

/-- How much the job of a message brings. -/
def Order.cost (w : Delivery.World) (o : Order) : Nat :=
  total ((o.job.errands o.number).map (·.cost w))

/-- How much is left of a message that is being prepared. -/
def Draft.left (w : Delivery.World) (now : Nat) (d : Draft) : Nat :=
  (if d.due ≤ now then 0 else 1) +
    match d.result with
    | .ok job => 10 + Order.cost w ⟨d.number, job⟩
    | .error _ => 1

theorem Draft.left_of_due (w : Delivery.World) {now : Nat} {d : Draft} (h : d.due ≤ now) :
    d.left w now = match d.result with
      | .ok job => 10 + Order.cost w ⟨d.number, job⟩
      | .error _ => 1 := by
  unfold Draft.left
  rw [if_pos h, Nat.zero_add]

namespace State

/-- How much is left of the messages in a pipeline. -/
def left (w : World) (s : State) : Nat :=
  total (s.drafts.map (·.left w.delivery s.now)) + s.pool.load (Order.cost w.delivery) +
    s.delivery.left w.delivery

/-- No message is on its way, and nothing can be done. -/
structure AtRest (settings : Settings) (s : State) : Prop where
  next : s.next? settings = none
  idle : s.isBusy = false

end State

/-! ## Moves -/

theorem load_submit {J : Type} (cost : J → Nat) (pool : Pool.State J) (job : J) :
    (pool.submit job).load cost ≤ pool.load cost + 9 + cost job := by
  unfold Pool.State.submit
  split
  · exact Nat.le_trans (Nat.le_add_right _ _) (Nat.le_add_right _ _)
  · next h =>
    rcases Channel.send?_cases h with ⟨-, hi, hw, -⟩ | ⟨h, -⟩
    · simp only [Pool.State.load, Pool.State.stockLoad, Pool.State.intake_note, hi, hw,
        Pool.State.registry_note, Pool.State.dispatcher_note, Pool.State.workers_note,
        List.map_append, total_append, List.map_cons, List.map_nil, total_cons, total_nil]
      omega
    · cases h
  · next h =>
    rcases Channel.send?_cases h with ⟨h, -⟩ | ⟨-, hi, hw, -⟩
    · cases h
    · simp only [Pool.State.load, Pool.State.stockLoad, hi, hw, List.map_append, total_append,
        List.map_cons, List.map_nil, total_cons, total_nil]
      omega

theorem left_assign (w : Delivery.World) {d : Delivery.State} {worker : Nat}
    (h : worker < d.workers.length) (job : Delivery.Job) (number : Nat) :
    (d.assign worker job number).left w = d.left w + total ((job.errands number).map (·.cost w)) := by
  have hk := List.getElem?_eq_getElem h
  have ht := total_map_set (·.left w d.clock.now) hk (d.workers[worker].assign job number)
  have ha : (d.workers[worker].assign job number).left w d.clock.now =
      d.workers[worker].left w d.clock.now + total ((job.errands number).map (·.cost w)) := by
    simp only [Delivery.Worker.left, Delivery.Worker.assign, List.map_append, total_append]
    omega
  simp only [Delivery.State.left, Delivery.State.workers_assign hk] at ht ⊢
  rw [show (d.assign worker job number).clock = d.clock from rfl]
  omega

/-- A move of this kind brings nothing new. -/
def Move.isInner : Move → Bool
  | .submit _ | .pool _ | .finish _ | .deliver _ _ => true
  | _ => false

theorem not_outside_of_own {m : Pool.Move Order} (h : m.isOwn = true) : m.isOutside = false := by
  cases m <;> first | rfl | cases h

/-- Every move that brings nothing new leaves less to do. -/
theorem Step.left_lt (h : Step settings w s m t) (hm : m.isInner = true)
    (hw : s.pool.workers.length = s.delivery.workers.length) : t.left w < s.left w := by
  cases h with
  | enter he =>
    cases m with
    | arrive | enter => cases hm
    | _ => cases he
  | malformed | stop | pass => cases hm
  | @submit position d hd hdue =>
    have hperm : total (s.drafts.map (·.left w.delivery s.now)) = d.left w.delivery s.now +
        total ((s.drafts.eraseIdx position).map (·.left w.delivery s.now)) :=
      total_perm ((perm_eraseIdx hd).map _)
    have hleft := Draft.left_of_due w.delivery hdue
    unfold State.submit
    split
    · next hr =>
      simp only [hr] at hleft
      simp only [State.left, State.now] at hperm hleft ⊢
      omega
    · next job hr =>
      have hl := load_submit (Order.cost w.delivery) s.pool ⟨d.number, job⟩
      simp only [hr] at hleft
      simp only [State.left, State.now] at hperm hleft ⊢
      omega
  | @pool m pool ho hp =>
    have hl := (Pool.Step.of_step hp).load_lt (Order.cost w.delivery) (not_outside_of_own ho)
    simp only [State.left, State.now]
    omega
  | @begin m pool worker order ho hp hst hlt =>
    -- The delivery worker gets what the pool loses, so the pool has to lose more than that.
    have hl := (Pool.Step.of_step hp).load_start (Order.cost w.delivery) hst
    have ha := left_assign w.delivery (hw ▸ hlt) order.job order.number
    have hc : (s.delivery.assign worker order.job order.number).clock = s.delivery.clock := rfl
    have ho : Order.cost w.delivery order =
        total ((order.job.errands order.number).map (·.cost w.delivery)) := rfl
    simp only [State.left, State.now, hc]
    omega
  | @finish worker k pool hk hb hp =>
    have hl := (Pool.Step.of_step hp).load_lt (Order.cost w.delivery) rfl
    simp only [State.left, State.now]
    omega
  | @deliver worker m delivery hd =>
    have hn := Delivery.State.now_step hd
    have hl := Delivery.State.left_step hd
    simp only [State.left, State.now, hn]
    omega

/-! ## Time -/

theorem Draft.left_le (w : Delivery.World) {now time : Nat} (h : now ≤ time) (d : Draft) :
    d.left w time ≤ d.left w now := by
  unfold Draft.left
  by_cases hn : d.due ≤ now
  · refine Nat.le_of_eq ?_
    rw [if_pos hn, if_pos (Nat.le_trans hn h)]
  · rw [if_neg hn]
    exact Nat.add_le_add_right (by split <;> decide) _

namespace State

/-- Whatever comes next is possible, and brings nothing new. -/
theorem exists_step_of_next? (h : s.next? settings = some m) :
    m.isInner = true ∧ ∃ t, s.step settings w m = some t := by
  unfold next? at h
  split at h
  · next position hp =>
    cases h
    obtain ⟨hlt, hd, -⟩ := List.findIdx?_eq_some_iff_getElem.1 hp
    refine ⟨rfl, ?_⟩
    simp only [step, List.getElem?_eq_getElem hlt, of_decide_eq_true hd, if_true]
    exact ⟨_, rfl⟩
  · split at h
    · next m hm =>
      cases h
      obtain ⟨t, ht⟩ := Pool.State.exists_step_of_next? hm
      refine ⟨rfl, ?_⟩
      simp only [step, Pool.State.isOwn_of_next? hm, if_true, ht]
      split <;> exact ⟨_, rfl⟩
    · split at h
      · next worker hd =>
        cases h
        obtain ⟨⟨k, i⟩, hk, hd⟩ := List.exists_of_findSome?_eq_some hd
        rw [List.mem_zipIdx_iff_getElem?] at hk
        split at hd
        · cases hd
        · next hb =>
          obtain ⟨order, ho, rfl⟩ := Option.map_eq_some_iff.1 hd
          refine ⟨rfl, ?_⟩
          unfold order? at ho
          split at ho
          · next order' hp => simp [step, hk, hb, Pool.State.step, hp]
          · cases ho
      · obtain ⟨⟨worker, m⟩, hd, rfl⟩ := Option.map_eq_some_iff.1 h
        obtain ⟨t, ht⟩ := Delivery.State.exists_step_of_next? (w := w.delivery) hd
        exact ⟨rfl, _, by simp only [step, ht]; rfl⟩

theorem next?_eq_none (h : s.next? settings = none) : (∀ d ∈ s.drafts, s.now < d.due) ∧
    s.pool.next? = none ∧ s.done? = none ∧ s.delivery.next? settings.delivery = none := by
  unfold next? at h
  split at h
  · cases h
  · next hf =>
    refine ⟨fun d hd => by simpa using List.findIdx?_eq_none_iff.1 hf d hd, ?_⟩
    split at h
    · cases h
    · next hp =>
      refine ⟨hp, ?_⟩
      split at h
      · cases h
      · next hd => exact ⟨hd, by simpa using h⟩

/-- The time up to the next end of something leaves less to do. -/
theorem left_pass (w : World) (h : s.next? settings = none) {time : Nat} (hd : s.due? = some time) :
    State.left w { s with delivery := s.delivery.pass time } < s.left w := by
  obtain ⟨hdrafts, -, -, hn⟩ := next?_eq_none h
  have hle : s.now ≤ max s.delivery.clock.now time := Nat.le_max_left _ _
  have hd' : total (s.drafts.map (·.left w.delivery (max s.delivery.clock.now time))) ≤
      total (s.drafts.map (·.left w.delivery s.now)) := total_le fun d _ => d.left_le w.delivery hle
  have hl := s.delivery.left_pass_le w.delivery time
  show total (s.drafts.map (·.left w.delivery (max s.delivery.clock.now time))) +
    s.pool.load (Order.cost w.delivery) + (s.delivery.pass time).left w.delivery < _
  unfold State.left
  rcases List.mem_append.1 (List.min?_mem hd) with hm | hm
  · obtain ⟨d, hdm, rfl⟩ := List.mem_map.1 hm
    have hlt := hdrafts d hdm
    have hs : total (s.drafts.map (·.left w.delivery (max s.delivery.clock.now d.due))) <
        total (s.drafts.map (·.left w.delivery s.now)) := by
      refine total_lt (fun d _ => d.left_le w.delivery hle) hdm ?_
      unfold Draft.left
      rw [if_pos (Nat.le_max_right _ _), if_neg (Nat.not_le.2 hlt)]
      omega
    omega
  · have hs := (s.delivery.left_pass w.delivery hn (Option.mem_toList.1 hm)).2
    omega

end State

/-! ## Bounds -/

theorem Order.cost_le_bound (w : Delivery.World) (o : Order) : o.cost w + 24 ≤ o.bound w := by
  have h : total ((o.job.errands o.number).map (·.cost w)) ≤
      total ((o.job.errands o.number).map (·.bound w)) := total_le fun e _ => e.cost_le_bound w
  unfold cost bound
  omega

theorem Draft.left_le_bound (w : Delivery.World) (now : Nat) (d : Draft) :
    d.left w now ≤ d.bound w := by
  have hw : (if d.due ≤ now then 0 else 1) ≤ 1 := by split <;> decide
  unfold left bound
  cases d.result with
  | error outcome => exact Nat.add_le_add_right hw 1
  | ok job =>
    have hc := Order.cost_le_bound w ⟨d.number, job⟩
    simp only
    omega

theorem load_phases_le (w : Delivery.World) (workers : List (Pool.Phase Order)) :
    total (workers.map (·.load (Order.cost w))) ≤
      total (workers.map (·.job?.elim 0 (·.bound w))) + 16 * workers.length := by
  induction workers with
  | nil => exact Nat.le_refl _
  | cons p workers ih =>
    have hp : p.load (Order.cost w) ≤ p.job?.elim 0 (·.bound w) + 16 := by
      cases p with
      | waiting job | closed job =>
        cases job with
        | none => simp [Pool.Phase.load]
        | some o =>
          have hc := o.cost_le_bound w
          simp only [Pool.Phase.load, Pool.Phase.job?, Option.elim_some]
          omega
      | busy o => simp only [Pool.Phase.load]; omega
      | _ => simp [Pool.Phase.load]
    simp only [List.map_cons, total_cons, List.length_cons]
    omega

theorem load_le_bound (w : Delivery.World) (pool : Pool.State Order) :
    pool.load (Order.cost w) ≤ total (pool.intake.items.map (·.bound w)) +
      total (pool.intake.waiting.map (·.2.bound w)) + pool.dispatcher.hand.elim 0 (·.bound w) +
      total (pool.workers.map (·.job?.elim 0 (·.bound w))) + 2 * pool.bound := by
  have hi : total (pool.intake.items.map (8 + Order.cost w ·)) ≤
      total (pool.intake.items.map (·.bound w)) :=
    total_le fun o _ => by have hc := o.cost_le_bound w; omega
  have hw : total (pool.intake.waiting.map (9 + Order.cost w ·.2)) ≤
      total (pool.intake.waiting.map (·.2.bound w)) :=
    total_le fun o _ => by have hc := o.2.cost_le_bound w; omega
  have hp := load_phases_le w pool.workers
  have hd : pool.dispatcher.load (Order.cost w) ≤ pool.dispatcher.hand.elim 0 (·.bound w) + 16 := by
    cases pool.dispatcher with
    | holding o | offering o worker =>
      have hc := o.cost_le_bound w
      simp only [Pool.Dispatcher.load, Pool.Dispatcher.hand, Option.elim_some]
      omega
    | _ => simp [Pool.Dispatcher.load]
  unfold Pool.State.load Pool.State.stockLoad Pool.State.bound
  omega

/-- What is left is no more than the bound of a run. -/
theorem State.left_le_bound (w : World) (s : State) : s.left w ≤ s.bound w := by
  have hd : total (s.drafts.map (·.left w.delivery s.now)) ≤ total (s.drafts.map (·.bound w.delivery)) :=
    total_le fun d _ => d.left_le_bound w.delivery s.now
  have hp := load_le_bound w.delivery s.pool
  have hl := s.delivery.left_lt_bound w.delivery
  unfold left bound
  omega

/-! ## Runs -/

/-- A pipeline that is let go on in a world acts so: no message comes, and it is not stopped. -/
def Within (w : World) (a : World × Move) : Prop :=
  a.1 = w ∧ (a.2.isInner = true ∨ ∃ time, a.2 = .pass time)

theorem Within.isMessage {a : World × Move} (h : Within w a) : a.2.isMessage = false := by
  obtain ⟨w', m⟩ := a
  obtain ⟨-, h | ⟨time, rfl⟩⟩ := h
  · cases m with
    | arrive | enter => cases h
    | _ => rfl
  · rfl

/-- No message comes while a pipeline is let go on. -/
theorem messages_within {inner : List (World × Move)} (h : ∀ a ∈ inner, Within w a) :
    messages (inner ++ acts) = messages acts := by
  induction inner with
  | nil => rfl
  | cons a inner ih =>
    rw [List.cons_append, messages_cons, (h a (List.mem_cons_self ..)).isMessage,
      ih fun b hb => h b (List.mem_cons_of_mem _ hb)]
    simp

/-- What happens to jobs is written down in front of what happened before. -/
theorem Step.pool_log (h : Step settings w s m t) : ∃ new, t.pool.log = new ++ s.pool.log := by
  cases h with
  | enter | malformed | deliver | pass => exact ⟨[], rfl⟩
  | @submit position d =>
    unfold State.submit
    split
    · exact ⟨[], rfl⟩
    · next job _ =>
      have hp : s.pool.step (.submit ⟨d.number, job⟩) = some (s.pool.submit ⟨d.number, job⟩) := rfl
      exact (Pool.Step.of_step hp).log
  | stop hp | pool _ hp | begin _ hp | finish _ _ hp => exact (Pool.Step.of_step hp).log

namespace State.Run

/-- Each worker of the pool has its delivery worker. -/
theorem workers (run : State.Run settings (.create size capacity sinkCapacity) acts s) :
    s.pool.workers.length = s.delivery.workers.length := by
  obtain ⟨moves, p⟩ := run.provenance
  have d := run.deliveries
  rw [p.pool.sized.workers, d.workers]

/-- The tickets of each delivery worker are in line with the queue of its sink. -/
theorem queued (run : State.Run settings (.create size capacity sinkCapacity) acts s) :
    s.delivery.Queued := by
  induction run with
  | refl =>
    intro k hk
    rw [List.eq_of_mem_replicate hk]
    exact ⟨.refl _, .nil, fun _ h => absurd h List.not_mem_nil, Nat.le_max_right _ _⟩
  | @step acts s t a run e q =>
    obtain ⟨w, m⟩ := a
    have hstep : Step settings w s m t := .of_step e
    cases hstep with
    | enter | malformed | stop | pool | finish | pass => exact q
    | submit => unfold State.submit; split <;> exact q
    | @begin m pool worker order _ _ _ hlt =>
      have ha : s.delivery.act settings.delivery (.assign worker order.job order.number) =
          some (s.delivery.assign worker order.job order.number) := if_pos (workers run ▸ hlt)
      exact q.act ha
    | deliver hd => exact q.step hd

/-- Whatever comes next can happen. -/
theorem next (run : State.Run settings (.create size capacity sinkCapacity) acts s) (w : World)
    (h : s.next? settings = some m) : ∃ t, s.step settings w m = some t ∧ t.left w < s.left w ∧
      Within w (w, m) ∧ State.Run settings (.create size capacity sinkCapacity) ((w, m) :: acts) t := by
  obtain ⟨hi, t, ht⟩ := exists_step_of_next? (w := w) h
  exact ⟨t, ht, Step.left_lt (.of_step ht) hi run.workers, ⟨rfl, .inl hi⟩, .step (w, m) run ht⟩

/-- No worker of the pool crashes. -/
theorem not_crashed (run : State.Run settings (.create size capacity sinkCapacity) acts s) :
    ∀ p ∈ s.pool.workers, p.isCrashed = false := by
  refine Trace.keeps (P := fun _ s => ∀ p ∈ s.pool.workers, p.isCrashed = false) run ?_ ?_
  · intro p hp
    rw [List.eq_of_mem_replicate hp]
    rfl
  · rintro acts s ⟨w, m⟩ t ih e
    have hstep : Step settings w s m t := .of_step e
    cases hstep with
    | enter | malformed | deliver | pass => exact ih
    | @submit position d =>
      unfold State.submit
      split
      · exact ih
      · next job _ =>
        have hp : s.pool.step (.submit ⟨d.number, job⟩) = some (s.pool.submit ⟨d.number, job⟩) := rfl
        exact (Pool.Step.of_step hp).not_crashed nofun ih
    | stop hp | finish _ _ hp => exact (Pool.Step.of_step hp).not_crashed nofun ih
    | pool ho hp | begin ho hp =>
      exact (Pool.Step.of_step hp).not_crashed (by rintro i rfl; cases ho) ih

/-- The pool forgets no job that was accepted. -/
theorem accepted_subset {s : State} (run : State.Run settings s acts t) :
    s.pool.accepted ⊆ t.pool.accepted := by
  refine Trace.keeps (P := fun _ t => s.pool.accepted ⊆ t.pool.accepted) run (fun _ h => h) ?_
  intro acts t a u ih e
  obtain ⟨new, hn⟩ := Step.pool_log (.of_step e)
  refine fun o ho => ?_
  unfold Pool.State.accepted
  rw [hn, pick_append]
  exact List.mem_append_left _ (ih ho)

/-- A pipeline that is let go on long enough goes on until nothing can be done, and it would not wait
for the next end of something. -/
theorem goesOn (run : State.Run settings (.create size capacity sinkCapacity) acts s) (w : World)
    (waits : State → Nat → Bool) {n : Nat} (h : s.left w ≤ n) :
    ∃ inner, (∀ a ∈ inner, Within w a) ∧
      State.Run settings s inner (s.runFor settings w waits n) ∧
      (s.runFor settings w waits n).next? settings = none ∧
      ∀ time, (s.runFor settings w waits n).due? = some time →
        waits (s.runFor settings w waits n) time = false := by
  have hpush {inner : List (World × Move)} {a : World × Move} (hi : ∀ b ∈ inner, Within w b)
      (ha : Within w a) : ∀ b ∈ inner ++ [a], Within w b := fun b hb =>
    (List.mem_append.1 hb).elim (hi b) fun hb => List.mem_singleton.1 hb ▸ ha
  induction n generalizing s acts with
  | zero =>
    -- Nothing is left to do, and every move or wait would leave less.
    have hn : s.next? settings = none := Option.eq_none_iff_forall_ne_some.2 fun m hm => by
      obtain ⟨t, -, hl, -⟩ := run.next w hm
      exact Nat.not_lt_zero _ (Nat.lt_of_lt_of_le hl h)
    refine ⟨[], fun _ h => absurd h List.not_mem_nil, .refl, hn, fun time hd => ?_⟩
    exact absurd (Nat.lt_of_lt_of_le (left_pass w hn hd) h) (Nat.not_lt_zero _)
  | succ n ih =>
    unfold runFor
    split
    · next m hm =>
      obtain ⟨t, ht, hl, hin, run'⟩ := run.next w hm
      rw [ht]
      obtain ⟨inner, hi, hr, hrest⟩ := ih run' (Nat.le_of_lt_succ (Nat.lt_of_lt_of_le hl h))
      have hone : State.Run settings s [(w, m)] t := .step _ .refl ht
      exact ⟨inner ++ [(w, m)], hpush hi hin, hone.trans hr, hrest⟩
    · next hn =>
      split
      · next time hd =>
        split
        · next hw =>
          have hl := left_pass w hn hd
          have hone : State.Run settings s [(w, .pass time)]
              { s with delivery := s.delivery.pass time } := .step _ .refl rfl
          obtain ⟨inner, hi, hr, hrest⟩ := ih (Trace.trans run hone)
            (Nat.le_of_lt_succ (Nat.lt_of_lt_of_le hl h))
          have hin : Within w (w, .pass time) := ⟨rfl, .inr ⟨time, rfl⟩⟩
          exact ⟨inner ++ [(w, Move.pass time)], hpush hi hin, hone.trans hr, hrest⟩
        · next hw =>
          refine ⟨[], fun _ h => absurd h List.not_mem_nil, .refl, hn, fun time' hd' => ?_⟩
          cases hd.symm.trans hd'
          exact Bool.eq_false_iff.2 hw
      · next hd =>
        refine ⟨[], fun _ h => absurd h List.not_mem_nil, .refl, hn, fun time hd' => ?_⟩
        rw [hd] at hd'
        cases hd'

/-- If nothing can be done and nothing is waited for, then no message is on its way. -/
theorem idle (run : State.Run settings (.create size capacity sinkCapacity) acts s) (w : World)
    (hn : s.next? settings = none) (hd : s.due? = none) : s.isBusy = false := by
  obtain ⟨-, hp, hdone, hnd⟩ := next?_eq_none hn
  obtain ⟨hdrafts, hdue⟩ := List.append_eq_nil_iff.1 (List.min?_eq_none_iff.1 hd)
  have hb := Delivery.State.not_busy_of_next? w.delivery run.queued hnd (by simpa using hdue)
  have hpool : s.pool.workers.any (·.job?.isSome) = false := by
    refine List.any_eq_false.2 fun p hp' hj => ?_
    obtain ⟨i, hi⟩ := List.mem_iff_getElem?.1 hp'
    have hm := (Pool.State.next?_eq_none hp).2.1 i p hi
    cases p with
    | waiting job | closed job =>
      cases job with
      | none => cases hj
      | some order => cases hm
    | busy order =>
      obtain ⟨k, hk⟩ : ∃ k, s.delivery.workers[i]? = some k :=
        ⟨_, List.getElem?_eq_getElem (run.workers ▸ (List.getElem?_eq_some_iff.1 hi).1)⟩
      have hkb := Bool.eq_false_iff.2 (List.any_eq_false.1 hb k (List.mem_of_getElem? hk))
      have hnone := List.findSome?_eq_none_iff.1 hdone (k, i) (List.mem_zipIdx_iff_getElem?.2 hk)
      simp [hkb, order?, hi] at hnone
    | _ => cases hj
  rw [List.map_eq_nil_iff] at hdrafts
  rw [isBusy, hdrafts, hb, hpool]
  rfl

/-- What `finish` makes of a pipeline is at rest. -/
theorem finish (run : State.Run settings (.create size capacity sinkCapacity) acts s) (w : World) :
    ∃ inner, (∀ a ∈ inner, Within w a) ∧ State.Run settings s inner (s.finish settings w) ∧
      (s.finish settings w).AtRest settings := by
  obtain ⟨inner, hi, hr, hn, hw⟩ := run.goesOn w (fun s _ => s.isBusy) (s.left_le_bound w)
  refine ⟨inner, hi, hr, hn, ?_⟩
  cases hd : (s.finish settings w).due? with
  | some time => exact hw time hd
  | none => exact idle (Trace.trans run hr) w hn hd

/-- At rest nobody waits to submit a job, and a job that comes finds a place, if the intake is still
open. -/
theorem clear (run : State.Run settings (.create size capacity sinkCapacity) acts s)
    (rest : s.AtRest settings) : s.drafts = [] ∧ s.pool.intake.waiting = [] ∧
      (s.pool.intake.isClosed = false → s.pool.intake.items = []) := by
  obtain ⟨moves, p⟩ := run.provenance
  have hidle := rest.idle
  simp only [isBusy, Bool.or_eq_false_iff, Bool.not_eq_false', List.isEmpty_iff] at hidle
  obtain ⟨⟨hdrafts, -⟩, hjobs⟩ := hidle
  have hcap : 0 < s.pool.intake.capacity := p.pool.sized.intake ▸ Nat.le_max_right _ _
  have hsettled := Pool.State.settled_of_next? (next?_eq_none rest.next).2.1
  refine ⟨hdrafts, hsettled.idle p.pool.slots p.pool.alive p.pool.gate hcap fun q hq hb => ?_⟩
  have hj := List.any_eq_false.1 hjobs q hq
  cases q with
  | busy order => exact hj rfl
  | crashed order => cases run.not_crashed _ hq
  | _ => cases hb

/-- At rest it is known what has become of every message. -/
theorem settles (run : State.Run settings (.create size capacity sinkCapacity) acts s)
    (rest : s.AtRest settings) {number : Nat} (h : number < s.arrivals) :
    ∃ outcome, s.outcome? number = some outcome := by
  obtain ⟨moves, p⟩ := run.provenance
  obtain ⟨hdrafts, hwaiting, -⟩ := run.clear rest
  refine Option.ne_none_iff_exists'.1 fun hnone => ?_
  obtain ⟨a, ha⟩ : ∃ a, (messages acts)[number]? = some a :=
    ⟨_, List.getElem?_eq_getElem (p.arrivals ▸ h)⟩
  rcases p.drafted_or_submitted ha hnone with ⟨d, hd, -⟩ | ⟨o, ho, rfl⟩
  · rw [hdrafts] at hd
    cases hd
  · have hm := p.pool.ledger.submitted.mem_iff.1 ho
    rw [hwaiting, List.map_nil, List.append_nil] at hm
    rcases List.mem_append.1 hm with hm | hm
    · rw [p.outcome_of_accepted hm] at hnone
      cases hnone
    · rw [p.outcome_of_refused hm] at hnone
      cases hnone

end State.Run

/-! ## Time at rest -/

namespace State

/-- The pool has settled, and no message is on its way; sinks may have something to do. -/
structure Quiet (s : State) : Prop where
  settled : s.pool.next? = none
  idle : s.isBusy = false

theorem AtRest.quiet (rest : s.AtRest settings) : s.Quiet :=
  ⟨(next?_eq_none rest.next).2.1, rest.idle⟩

theorem Quiet.parts (q : s.Quiet) : s.drafts = [] ∧ s.delivery.isBusy = false ∧ s.done? = none := by
  have hidle := q.idle
  simp only [isBusy, Bool.or_eq_false_iff, Bool.not_eq_false', List.isEmpty_iff] at hidle
  obtain ⟨⟨hdrafts, hdelivery⟩, hjobs⟩ := hidle
  refine ⟨hdrafts, hdelivery, List.findSome?_eq_none_iff.2 fun k _ => ?_⟩
  have ho : s.order? k.2 = none := by
    unfold order?
    split
    · next order hp => exact absurd rfl (List.any_eq_false.1 hjobs _ (List.mem_of_getElem? hp))
    · rfl
  rw [ho]
  split <;> rfl

/-- In a quiet pipeline only sinks have something to do. -/
theorem Quiet.next? (q : s.Quiet) : s.next? settings =
    (s.delivery.next? settings.delivery).map fun m => .deliver m.1 m.2 := by
  obtain ⟨hdrafts, -, hdone⟩ := q.parts
  unfold State.next?
  rw [hdrafts, q.settled, hdone]
  rfl

theorem Quiet.step (q : s.Quiet) (h : s.next? settings = some m) (ht : s.step settings w m = some t) :
    t.Quiet := by
  rw [q.next?] at h
  obtain ⟨⟨worker, m⟩, -, rfl⟩ := Option.map_eq_some_iff.1 h
  obtain ⟨delivery, hd, rfl⟩ := Option.map_eq_some_iff.1 ht
  obtain ⟨k, r, hk, hr, rfl⟩ := Delivery.State.step_cases hd
  obtain ⟨hdrafts, hb, -⟩ := q.parts
  have hkb : k.isBusy = false := Bool.eq_false_iff.2 (List.any_eq_false.1 hb k (List.mem_of_getElem? hk))
  have hkb' := hkb
  rw [Delivery.Worker.isBusy_eq_false] at hkb'
  have hrb : r.1.isBusy = false := by
    cases hr with
    | start he => rw [hkb'.1] at he; cases he
    | turn hf => rw [hkb'.2] at hf; cases hf
    | take | finish => exact hkb
  have hb' : (s.delivery.workers.set worker r.1).any (·.isBusy) = false := by
    refine List.any_eq_false.2 fun k' hk' => Bool.eq_false_iff.1 ?_
    rcases List.mem_or_eq_of_mem_set hk' with hk' | rfl
    · exact Bool.eq_false_iff.2 (List.any_eq_false.1 hb k' hk')
    · exact hrb
  have hidle := q.idle
  refine ⟨q.settled, ?_⟩
  simp only [isBusy, Delivery.State.isBusy, Bool.or_eq_false_iff] at hidle ⊢
  exact ⟨⟨hidle.1.1, hb'⟩, hidle.2⟩

theorem Quiet.runFor (q : s.Quiet) (waits : State → Nat → Bool) (n : Nat) :
    (s.runFor settings w waits n).Quiet := by
  induction n generalizing s with
  | zero => exact q
  | succ n ih =>
    unfold State.runFor
    split
    · next m hm =>
      split
      · next t ht => exact ih (q.step hm ht)
      · exact q
    · split
      · split
        · exact ih ⟨q.settled, q.idle⟩
        · exact q
      · exact q

/-- A pipeline at rest stays so while nothing ends. -/
theorem AtRest.pass (rest : s.AtRest settings) {time : Nat}
    (h : ∀ due, s.due? = some due → time < due) :
    State.AtRest settings { s with delivery := s.delivery.pass time } := by
  have q : State.Quiet { s with delivery := s.delivery.pass time } :=
    ⟨rest.quiet.settled, rest.quiet.idle⟩
  obtain ⟨-, -, -, hn⟩ := next?_eq_none rest.next
  refine ⟨?_, q.idle⟩
  rw [q.next?, Option.map_eq_none_iff]
  refine Delivery.State.next?_pass rest.quiet.parts.2.1 hn fun d hd => ?_
  obtain ⟨due, hm⟩ : ∃ due, s.due? = some due := Option.ne_none_iff_exists'.1 fun hnone => by
    have he := (List.append_eq_nil_iff.1 (List.min?_eq_none_iff.1 hnone)).2
    rw [hd] at he
    cases he
  have hle : due ≤ d := (List.min?_eq_some_iff.1 hm).2 d
    (List.mem_append_right _ (by rw [hd]; exact List.mem_singleton_self d))
  exact Nat.lt_of_lt_of_le (h due hm) hle

/-- What is at rest is at rest again after some time. -/
theorem Run.advance (run : State.Run settings (.create size capacity sinkCapacity) acts s)
    (rest : s.AtRest settings) (w : World) (ms : Nat) :
    ∃ inner, (∀ a ∈ inner, Within w a) ∧ State.Run settings s inner (s.advance settings w ms) ∧
      (s.advance settings w ms).AtRest settings := by
  obtain ⟨inner, hi, hr, hn, hw⟩ :=
    run.goesOn w (fun _ due => due ≤ s.now + ms) (s.left_le_bound w)
  have q : (s.run settings w fun _ due => due ≤ s.now + ms).Quiet := rest.quiet.runFor _ _
  have hpass : Within w (w, Move.pass (s.now + ms)) := ⟨rfl, .inr ⟨_, rfl⟩⟩
  refine ⟨(w, .pass (s.now + ms)) :: inner, fun a ha => ?_, .step _ hr rfl, ?_⟩
  · rcases List.mem_cons.1 ha with rfl | ha
    · exact hpass
    · exact hi a ha
  · exact AtRest.pass ⟨hn, q.idle⟩ fun due hd => by simpa using hw due hd

end State

end Herald.Pipeline
