import Herald.Proofs.Delivery.Chronicle
import Herald.Proofs.Delivery.Progress

/-!
# Deliveries come to rest

How much is left of some deliveries is a number. Every move lessens it, and so does the time up to
the next end of a call, during which nothing can be done.

* `State.left`: how much is left.
* `State.left_step`, `State.left_pass`: it becomes less.
* `State.exists_step_of_next?`, `State.settled_of_next?`: the move that comes first is possible, and
  there is none only if none is.
-/

namespace Herald

/-- A call under way still has its end before it. -/
def Pending.wait {ε α : Type} (now : Nat) (p : Pending ε α) : Nat := if p.isOver now then 0 else 1

section

variable {ε α : Type} {p : Pending ε α} {now time : Nat}

theorem Pending.wait_le_one (p : Pending ε α) (now : Nat) : p.wait now ≤ 1 := by
  unfold wait; split <;> decide

theorem Pending.wait_of_over (h : p.isOver now = true) : p.wait now = 0 := if_pos h

theorem Pending.wait_le (h : now ≤ time) : p.wait time ≤ p.wait now := by
  by_cases hn : p.isOver now = true
  · have ht : p.isOver time = true := decide_eq_true (Nat.le_trans (of_decide_eq_true hn) h)
    rw [wait_of_over ht]
    exact Nat.zero_le _
  · have hw : p.wait now = 1 := if_neg hn
    exact hw ▸ wait_le_one p time

theorem Pending.wait_lt (h : now < p.due) (ht : p.due ≤ time) : p.wait time < p.wait now := by
  have hn : ¬ p.isOver now = true := fun ho => Nat.not_lt.2 (of_decide_eq_true ho) h
  have hw : p.wait now = 1 := if_neg hn
  rw [wait_of_over (decide_eq_true ht), hw]
  exact Nat.zero_lt_one

end

namespace Delivery

variable {settings : Settings} {w : World}

/-! ## How much is left -/

/-- How many devices are in an answer. -/
def count : Except Failure (List DeviceToken) → Nat
  | .ok tokens => tokens.length
  | .error _ => 0

theorem World.devicesOf_eq (w : World) (user : UserId) :
    w.devicesOf user = count (w.devices user).answer := by
  unfold World.devicesOf count
  cases (w.devices user).answer <;> rfl

/-- How much is left of a send, with the removal of its token. -/
def Send.left (now : Nat) : Send → Nat
  | flying call => 5 + call.wait now
  | parked _ => 4
  | ended => 0

/-- How much is left of an errand. -/
def Stage.left (w : World) (user : UserId) (now : Nat) : Stage → Nat
  | fresh => 10 + 6 * w.devicesOf user
  | checking _ call => 8 + call.wait now + 6 * w.devicesOf user
  | lookingUp call => 6 + call.wait now + 6 * count call.answer
  | sending sends => 5 + total (sends.map (·.2.left now))
  | recording _ call => 3 + call.wait now
  | storing _ call => 1 + call.wait now

/-- How much is left for a sink. -/
def sinkLeft (now : Nat) (sink : Cleanup.Sink) : Nat :=
  3 * sink.queue.items.length + sink.removal.elim 0 (1 + ·.wait now)

/-- How much an errand brings. -/
def Errand.cost (w : World) (e : Errand) : Nat := 11 + 6 * w.devicesOf e.user

def Flight.left (w : World) (now : Nat) (f : Flight) : Nat := f.stage.left w f.errand.user now

def Worker.left (w : World) (now : Nat) (k : Worker) : Nat :=
  total (k.waiting.map (·.cost w)) + total (k.flights.map (·.left w now)) + sinkLeft now k.sink

/-- How much is left for all workers. -/
def State.left (w : World) (s : State) : Nat := total (s.workers.map (·.left w s.clock.now))

/-! ## Sends -/

namespace Send

variable {e : Errand} {index : Nat} {token : DeviceToken} {s : Scene}

theorem left_park (token : DeviceToken) (s : Scene) (now : Nat) : (park token s).1.left now +
    3 * (park token s).2.queue.items.length ≤ 4 + 3 * s.queue.items.length := by
  unfold park
  split
  · simp [left]
  · next h =>
    rcases Channel.send?_cases h with ⟨-, hi, -⟩ | ⟨h, -⟩
    · simp only [left, hi, List.length_append, List.length_singleton]; omega
    · cases h
  · next h =>
    rcases Channel.send?_cases h with ⟨h, -⟩ | ⟨-, hi, -⟩
    · cases h
    · simp only [left, hi]; omega

/-- A send that is ready comes closer to its end. -/
theorem left_proceed (e : Errand) (index : Nat) (token : DeviceToken) {send : Send}
    (h : send.isReady s = true) : (send.proceed e index token s).1.left s.now +
      3 * (send.proceed e index token s).2.queue.items.length <
      send.left s.now + 3 * s.queue.items.length := by
  cases send with
  | flying call =>
    have ho : call.isOver s.now = true := h
    simp only [proceed, ho, if_true]
    split
    · have hp := left_park token (s.note (.answered e index token call.answer)) s.now
      simp only [left, Scene.note] at hp ⊢
      omega
    · simp only [left, Scene.note]; omega
  | parked ticket =>
    obtain ⟨⟨a, d⟩, hd⟩ := Channel.enter?_of_calls h
    obtain ⟨-, hi, -⟩ := Channel.enter?_cases hd
    simp only [proceed, hd, left, hi, List.length_append, List.length_singleton]
    omega
  | ended => cases h

theorem left_proceed_le (e : Errand) (index : Nat) (token : DeviceToken) (send : Send) (s : Scene) :
    (send.proceed e index token s).1.left s.now +
      3 * (send.proceed e index token s).2.queue.items.length ≤
      send.left s.now + 3 * s.queue.items.length := by
  cases hr : send.isReady s with
  | true => exact Nat.le_of_lt (left_proceed e index token hr)
  | false => simp only [proceed_of_not_ready hr, Nat.le_refl]

theorem now_proceed (e : Errand) (index : Nat) (token : DeviceToken) (send : Send) (s : Scene) :
    (send.proceed e index token s).2.now = s.now :=
  congrArg (·.now) (facts_proceed e index token s send).2

theorem left_proceedAll_le (e : Errand) (index : Nat) (sends : List (DeviceToken × Send))
    (s : Scene) : total ((proceedAll e index sends s).1.map (·.2.left s.now)) +
      3 * (proceedAll e index sends s).2.queue.items.length ≤
      total (sends.map (·.2.left s.now)) + 3 * s.queue.items.length := by
  induction sends generalizing index s with
  | nil => exact Nat.le_refl _
  | cons p sends ih =>
    obtain ⟨token, send⟩ := p
    have ht := ih (index + 1) (send.proceed e index token s).2
    have hp := left_proceed_le e index token send s
    rw [now_proceed] at ht
    simp only [proceedAll, List.map_cons, total_cons]
    omega

theorem left_proceedAll {sends : List (DeviceToken × Send)} (e : Errand) (index : Nat)
    (h : sends.any (·.2.isReady s) = true) :
    total ((proceedAll e index sends s).1.map (·.2.left s.now)) +
      3 * (proceedAll e index sends s).2.queue.items.length <
      total (sends.map (·.2.left s.now)) + 3 * s.queue.items.length := by
  induction sends generalizing index with
  | nil => cases h
  | cons p sends ih =>
    obtain ⟨token, send⟩ := p
    simp only [proceedAll, List.map_cons, total_cons]
    cases hr : send.isReady s with
    | true =>
      have hp := left_proceed e index token hr
      have ht := left_proceedAll_le e (index + 1) sends (send.proceed e index token s).2
      rw [now_proceed] at ht
      omega
    | false =>
      have ht := ih (index + 1) (by simpa [hr] using h)
      simp only [proceed_of_not_ready hr]
      omega

theorem left_beginAll (settings : Settings) (w : World) (e : Errand) (index : Nat)
    (tokens : List DeviceToken) (s : Scene) :
    total ((beginAll settings w e index tokens s).1.map (·.2.left s.now)) +
      3 * (beginAll settings w e index tokens s).2.queue.items.length ≤
      6 * tokens.length + 3 * s.queue.items.length := by
  induction tokens generalizing index s with
  | nil => exact Nat.le_refl _
  | cons token tokens ih =>
    simp only [beginAll, List.map_cons, total_cons, List.length_cons]
    generalize Pending.start s.now settings.limit pushName (w.gateway index token) = call
    have hp := left_proceed_le e index token (.flying call) (s.note (.sent e index token))
    have ht := ih (index + 1) ((flying call).proceed e index token (s.note (.sent e index token))).2
    have hf : (flying call).left s.now ≤ 6 := Nat.add_le_add_left (call.wait_le_one _) 5
    have hnow : (s.note (.sent e index token)).now = s.now := rfl
    have hq : (s.note (.sent e index token)).queue = s.queue := rfl
    rw [now_proceed] at ht
    rw [hnow, hq] at hp
    rw [hnow] at ht
    omega

end Send

/-! ## Turns -/

/-- What is left after a turn. -/
def leftOf (w : World) (user : UserId) (now : Nat) (out : Option Stage × Scene) : Nat :=
  out.1.elim 0 (·.left w user now) + 3 * out.2.queue.items.length

section

variable (settings : Settings) (w : World) (e : Errand) (s : Scene)

theorem left_lookUp : leftOf w e.user s.now (lookUp settings w e s) ≤
    7 + 6 * w.devicesOf e.user + 3 * s.queue.items.length := by
  have hc : count (Pending.start s.now settings.limit lookupName (w.devices e.user)).answer ≤
      w.devicesOf e.user := by
    rw [w.devicesOf_eq]
    unfold Pending.start Reply.within
    dsimp only
    split
    · exact Nat.le_refl _
    · exact Nat.zero_le _
  have hw := (Pending.start s.now settings.limit lookupName (w.devices e.user)).wait_le_one s.now
  simp only [leftOf, lookUp, Option.elim_some, Stage.left, Scene.note]
  omega

theorem left_store : leftOf w e.user s.now (store settings w e s) ≤
    2 + 3 * s.queue.items.length := by
  unfold store
  split
  · have hw := (Pending.start s.now settings.limit History.writeName w.cache).wait_le_one s.now
    simp only [leftOf, Option.elim_some, Stage.left, Scene.note]
    omega
  · simp only [leftOf, conclude, Option.elim_none, Scene.note]
    omega

theorem left_record : leftOf w e.user s.now (record settings w e s) ≤
    4 + 3 * s.queue.items.length := by
  unfold record
  split
  · exact Nat.le_trans (left_store settings w e s) (Nat.add_le_add_right (by decide) _)
  · have hw := (Pending.start s.now settings.limit Cooldown.recordName w.cache).wait_le_one s.now
    simp only [leftOf, Option.elim_some, Stage.left, Scene.note]
    omega

theorem left_check : leftOf w e.user s.now (check settings w e s) ≤
    9 + 6 * w.devicesOf e.user + 3 * s.queue.items.length := by
  unfold check
  split
  · have hl := left_lookUp settings w e s
    omega
  · have hw := (Pending.start s.now settings.limit Cooldown.checkName w.cache).wait_le_one s.now
    simp only [leftOf, Option.elim_some, Stage.left, Scene.note]
    omega

/-- A turn takes no time. -/
theorem now_turn (stage : Stage) : (proceed settings w e s stage).2.now = s.now := by
  have hrecord (s : Scene) : (record settings w e s).2.now = s.now :=
    congrArg (·.now) (quiet_record settings w e s).clock
  have hstore (s : Scene) : (store settings w e s).2.now = s.now :=
    congrArg (·.now) (quiet_store settings w e s).clock
  cases stage with
  | fresh =>
    simp only [proceed, check]
    split <;> rfl
  | checking window call =>
    simp only [proceed]
    split <;> rfl
  | lookingUp call =>
    simp only [proceed]
    split
    · rfl
    · exact congrArg (·.now) (Send.facts_beginAll settings w e 0 _ _).2
  | sending sends =>
    simp only [proceed]
    split
    · exact hrecord s
    · exact congrArg (·.now) (Send.facts_proceedAll e 0 sends s).2
  | recording window call =>
    simp only [proceed]
    split <;> exact hstore _
  | storing entry call =>
    simp only [proceed]
    split <;> rfl

/-- A turn leaves less of the errand. -/
theorem left_turn {s : Scene} {stage : Stage} (hr : stage.isReady s = true) :
    leftOf w e.user s.now (proceed settings w e s stage) <
      stage.left w e.user s.now + 3 * s.queue.items.length := by
  cases stage with
  | fresh =>
    have hc := left_check settings w e s
    simp only [proceed, Stage.left]
    omega
  | checking window call =>
    have hw := Pending.wait_of_over hr
    simp only [proceed, Stage.left, hw]
    split
    · have hl := left_lookUp settings w e
        (s.note (.checked e (call.answer.map fun _ => s.clock.cache.isMarked s.now window.key)))
      simp only [Scene.note, Scene.now] at hl ⊢
      omega
    · simp only [leftOf, conclude, Option.elim_none, Scene.note]
      omega
  | lookingUp call =>
    have hw := Pending.wait_of_over hr
    simp only [proceed, Stage.left, hw]
    split
    · simp only [leftOf, conclude, Option.elim_none, Scene.note]
      omega
    · next tokens ha =>
      have hb := Send.left_beginAll settings w e 0 tokens (s.note (.found e call.answer))
      simp only [leftOf, Option.elim_some, Stage.left, ha, count]
      simp only [Scene.note, Scene.now, ha] at hb ⊢
      omega
  | sending sends =>
    simp only [proceed, Stage.left]
    split
    · have hl := left_record settings w e s
      omega
    · next hall =>
      have hany : sends.any (·.2.isReady s) = true := (Bool.or_eq_true_iff.1 hr).resolve_left hall
      have hlt := Send.left_proceedAll e 0 hany
      simp only [leftOf, Option.elim_some, Stage.left]
      omega
  | recording window call =>
    have hw := Pending.wait_of_over hr
    simp only [proceed, Stage.left, hw]
    split
    · have hl := left_store settings w e (s.write (·.setMark window.key (s.now + window.ttl)))
      simp only [Scene.write, Scene.now] at hl ⊢
      omega
    · have hl := left_store settings w e s
      omega
  | storing entry call =>
    have hw := Pending.wait_of_over hr
    simp only [proceed, Stage.left, hw]
    split <;> simp only [leftOf, conclude, Option.elim_none, Scene.note, Scene.write] <;> omega

end

/-! ## Moves -/

/-- A move takes no time, and it leaves less to do. -/
theorem Move.Step.left {clock : ClockedCache} {k : Worker} {m : Move}
    {r : Worker × ClockedCache × List Happening} (h : Move.Step settings w clock k m r) :
    r.2.1.now = clock.now ∧ r.1.left w clock.now < k.left w clock.now := by
  cases h with
  | start he =>
    refine ⟨rfl, ?_⟩
    simp only [Worker.left, he, List.map_append, total_append, List.map_cons, List.map_nil, total_cons,
      total_nil, Flight.left, Stage.left, Errand.cost]
    omega
  | @turn position f out flights hf hr ho hp =>
    have hn := now_turn settings w f.errand (k.scene clock) f.stage
    have hl := left_turn settings w f.errand hr
    rw [ho] at hn hl
    refine ⟨hn, ?_⟩
    have hbefore : total (k.flights.map (·.left w clock.now)) =
        f.stage.left w f.errand.user clock.now +
          total ((k.flights.eraseIdx position).map (·.left w clock.now)) :=
      total_perm ((perm_eraseIdx hf).map _)
    have hafter : total (flights.map (·.left w clock.now)) =
        out.1.elim 0 (·.left w f.errand.user clock.now) +
          total ((k.flights.eraseIdx position).map (·.left w clock.now)) := by
      rw [total_perm (hp.map _), List.map_append, total_append]
      cases out.1 <;> simp [Flight.left]
    simp only [leftOf, Worker.scene, Scene.now] at hl
    simp only [Worker.left, sinkLeft, hbefore, hafter]
    omega
  | take h =>
    refine ⟨rfl, ?_⟩
    obtain ⟨hn, queue, e, rfl⟩ := Cleanup.Sink.take?_cases h
    obtain ⟨hi, -⟩ := Channel.receive?_cases e
    have hw := (Pending.start clock.now settings.limit Cleanup.removalName w.removal).wait_le_one clock.now
    simp only [Worker.left, sinkLeft, hn, hi, List.length_cons, Option.elim_some, Option.elim_none]
    omega
  | finish h =>
    refine ⟨rfl, ?_⟩
    obtain ⟨p, hs, -, rfl⟩ := Cleanup.Sink.finish?_cases h
    simp only [Worker.left, sinkLeft, hs, Option.elim_some, Option.elim_none]
    omega

/-! ## Time -/

section

variable {now time : Nat}

theorem Send.left_le (h : now ≤ time) (send : Send) : send.left time ≤ send.left now := by
  cases send with
  | flying call => exact Nat.add_le_add_left (Pending.wait_le h) 5
  | _ => exact Nat.le_refl _

theorem Send.left_lt {send : Send} {d : Nat} (hd : send.due? = some d) (h : now < d)
    (ht : d ≤ time) : send.left time < send.left now := by
  cases send with
  | flying call =>
    cases hd
    exact Nat.add_lt_add_left (Pending.wait_lt h ht) 5
  | _ => cases hd

theorem Stage.left_le (w : World) (user : UserId) (h : now ≤ time) (stage : Stage) :
    stage.left w user time ≤ stage.left w user now := by
  cases stage with
  | fresh => exact Nat.le_refl _
  | checking window call | lookingUp call =>
    exact Nat.add_le_add_right (Nat.add_le_add_left (Pending.wait_le h) _) _
  | sending sends => exact Nat.add_le_add_left (total_le fun p _ => Send.left_le h p.2) 5
  | recording window call => exact Nat.add_le_add_left (Pending.wait_le h) 3
  | storing entry call => exact Nat.add_le_add_left (Pending.wait_le h) 1

/-- When a call ends there is less left of its stage. -/
theorem Stage.left_lt (w : World) (user : UserId) {stage : Stage} {d : Nat} (hd : d ∈ stage.dues)
    (h : now < d) (ht : d ≤ time) : stage.left w user time < stage.left w user now := by
  cases stage with
  | fresh => cases hd
  | checking window call | lookingUp call =>
    rw [List.mem_singleton.1 hd] at h ht
    exact Nat.add_lt_add_right (Nat.add_lt_add_left (Pending.wait_lt h ht) _) _
  | sending sends =>
    obtain ⟨p, hp, hpd⟩ := List.mem_filterMap.1 hd
    have hle := Nat.le_trans (Nat.le_of_lt h) ht
    exact Nat.add_lt_add_left
      (total_lt (fun p _ => Send.left_le hle p.2) hp (Send.left_lt hpd h ht)) 5
  | recording window call | storing entry call =>
    rw [List.mem_singleton.1 hd] at h ht
    exact Nat.add_lt_add_left (Pending.wait_lt h ht) _

theorem sinkLeft_le (h : now ≤ time) (sink : Cleanup.Sink) : sinkLeft time sink ≤ sinkLeft now sink := by
  unfold sinkLeft
  cases sink.removal with
  | none => exact Nat.le_refl _
  | some p => exact Nat.add_le_add_left (Nat.add_le_add_left (Pending.wait_le h) 1) _

namespace Worker

theorem left_le (w : World) (h : now ≤ time) (k : Worker) : k.left w time ≤ k.left w now := by
  have hf : total (k.flights.map (·.left w time)) ≤ total (k.flights.map (·.left w now)) :=
    total_le fun f _ => f.stage.left_le w f.errand.user h
  have hs := sinkLeft_le h k.sink
  unfold left
  omega

theorem left_lt (w : World) {k : Worker} {d : Nat} (hd : d ∈ k.dues) (h : now < d) (ht : d ≤ time) :
    k.left w time < k.left w now := by
  have hle := Nat.le_trans (Nat.le_of_lt h) ht
  unfold left
  rcases List.mem_append.1 hd with hd | hd
  · obtain ⟨f, hf, hd⟩ := List.mem_flatMap.1 hd
    have hf : total (k.flights.map (·.left w time)) < total (k.flights.map (·.left w now)) :=
      total_lt (fun f _ => f.stage.left_le w f.errand.user hle) hf
        (f.stage.left_lt w f.errand.user hd h ht)
    have hs := sinkLeft_le hle k.sink
    omega
  · obtain ⟨p, hp, rfl⟩ := List.mem_map.1 hd
    have hf : total (k.flights.map (·.left w time)) ≤ total (k.flights.map (·.left w now)) :=
      total_le fun f _ => f.stage.left_le w f.errand.user hle
    have hw := Pending.wait_lt h ht
    simp only [sinkLeft, Option.mem_toList.1 hp, Option.elim_some]
    omega

/-! ## What comes next -/

variable {clock : ClockedCache} {k : Worker}

theorem next?_eq_none (h : k.next? settings clock = none) : k.canStart settings = false ∧
    (∀ f ∈ k.flights, f.stage.isReady (k.scene clock) = false) ∧
    (∀ p ∈ k.sink.removal, p.isOver clock.now = false) ∧
    (k.sink.removal = none → k.sink.queue.items = []) := by
  unfold next? at h
  split at h
  · cases h
  · next hs =>
    refine ⟨Bool.eq_false_iff.2 hs, ?_⟩
    split at h
    · cases h
    · next hf =>
      refine ⟨fun f hm => by simpa using List.findIdx?_eq_none_iff.1 hf f hm, ?_⟩
      split at h
      · next p hp =>
        split at h <;> cases h
        refine ⟨fun q hq => ?_, fun hn => ?_⟩
        · cases hp.symm.trans hq
          exact Bool.eq_false_iff.2 ‹_›
        · rw [hp] at hn; cases hn
      · next hn =>
        split at h <;> cases h
        refine ⟨fun q hq => ?_, fun _ => List.isEmpty_iff.1 ‹_›⟩
        rw [hn] at hq; cases hq

/-- The move that comes first is possible. -/
theorem exists_step_of_next? {m : Move} (h : k.next? settings clock = some m) :
    ∃ r, k.step settings w clock m = some r := by
  unfold next? at h
  split at h
  · next hs =>
    cases h
    obtain ⟨hr, hw⟩ := Bool.and_eq_true_iff.1 hs
    cases hk : k.waiting with
    | nil => simp [hk] at hw
    | cons e rest => exact ⟨_, by simp only [step, hk, of_decide_eq_true hr, if_true]; rfl⟩
  · split at h
    · next position hp =>
      cases h
      obtain ⟨hlt, hr, -⟩ := List.findIdx?_eq_some_iff_getElem.1 hp
      exact ⟨_, by simp only [step, List.getElem?_eq_getElem hlt, hr, if_true]; rfl⟩
    · split at h
      · next p hp =>
        split at h <;> cases h
        next ho =>
        exact ⟨_, by simp only [step, Cleanup.Sink.finish?, hp, ho, if_true, Option.map_some]; rfl⟩
      · next hn =>
        split at h <;> cases h
        next hi =>
        cases e : k.sink.queue.receive? with
        | none => simp [Channel.receive?_eq_none.1 e] at hi
        | some r => exact ⟨_, by simp only [step, Cleanup.Sink.take?, hn, e, Option.map_some]; rfl⟩

/-- If no move comes first, none is possible. -/
theorem settled_of_next? (w : World) (h : k.next? settings clock = none) (m : Move) :
    k.step settings w clock m = none := by
  obtain ⟨hs, hf, hp, hi⟩ := next?_eq_none h
  refine Option.eq_none_iff_forall_ne_some.2 fun r hr => ?_
  cases Move.Step.of_step hr with
  | start he hl => simp [canStart, he, hl] at hs
  | turn hg hg' => exact Bool.false_ne_true ((hf _ (List.mem_of_getElem? hg)).symm.trans hg')
  | take ht =>
    obtain ⟨hn, queue, e, -⟩ := Cleanup.Sink.take?_cases ht
    rw [(Channel.receive?_cases e).1] at hi
    cases hi hn
  | finish ht =>
    obtain ⟨p, hr, ho, -⟩ := Cleanup.Sink.finish?_cases ht
    exact Bool.false_ne_true ((hp p hr).symm.trans ho)

/-- If no move comes first, no call under way has ended. -/
theorem lt_due_of_next? (h : k.next? settings clock = none) {d : Nat} (hd : d ∈ k.dues) :
    clock.now < d := by
  obtain ⟨-, hf, hp, -⟩ := next?_eq_none h
  rcases List.mem_append.1 hd with hd | hd
  · obtain ⟨f, hm, hd⟩ := List.mem_flatMap.1 hd
    have hr := hf f hm
    cases hs : f.stage with
    | fresh => rw [hs] at hr; cases hr
    | checking window call | lookingUp call | recording window call | storing entry call =>
      rw [hs] at hr hd
      rw [List.mem_singleton.1 hd]
      exact Nat.not_le.1 (of_decide_eq_false hr)
    | sending sends =>
      rw [hs] at hr hd
      obtain ⟨p, hp, hpd⟩ := List.mem_filterMap.1 hd
      have hn := List.any_eq_false.1 (Bool.or_eq_false_iff.1 hr).2 p hp
      cases hps : p.2 with
      | flying call =>
        rw [hps] at hpd hn
        cases hpd
        exact Nat.not_le.1 fun hle => hn (decide_eq_true hle)
      | _ => rw [hps] at hpd; cases hpd
  · obtain ⟨p, hm, rfl⟩ := List.mem_map.1 hd
    exact Nat.not_le.1 (of_decide_eq_false (hp p (Option.mem_toList.1 hm)))

/-- As long as nothing ends, a worker without a job has nothing to do. -/
theorem next?_later {clock' : ClockedCache} (hb : k.isBusy = false)
    (h : k.next? settings clock = none) (hd : ∀ d ∈ k.dues, clock'.now < d) :
    k.next? settings clock' = none := by
  obtain ⟨-, -, -, hi⟩ := next?_eq_none h
  rw [isBusy_eq_false] at hb
  have hs : k.canStart settings = false := by simp [canStart, hb.1]
  unfold next?
  rw [hs, hb.2]
  simp only [Bool.false_eq_true, if_false, List.findIdx?_nil]
  cases hr : k.sink.removal with
  | none => simp [hi hr]
  | some p =>
    have hp := hd p.due (List.mem_append_right _ (by simp [hr]))
    exact if_neg fun ho => Nat.not_lt.2 (of_decide_eq_true ho) hp

end Worker

end

namespace State

variable {s t : State}

theorem now_step {worker : Nat} {m : Move} (h : s.step settings w worker m = some t) :
    t.clock.now = s.clock.now := by
  obtain ⟨k, r, -, hr, rfl⟩ := step_cases h
  exact hr.left.1

/-- Every move leaves less to do. -/
theorem left_step {worker : Nat} {m : Move} (h : s.step settings w worker m = some t) :
    t.left w < s.left w := by
  have hn := now_step h
  obtain ⟨k, r, hk, hr, rfl⟩ := step_cases h
  have ht := total_map_set (·.left w s.clock.now) hk r.1
  have hl := hr.left.2
  simp only [State.left]
  rw [show r.2.1.now = s.clock.now from hn]
  omega

theorem next?_eq_none (h : s.next? settings = none) {k : Worker} (hk : k ∈ s.workers) :
    k.next? settings s.clock = none := by
  obtain ⟨i, hi⟩ := List.mem_iff_getElem?.1 hk
  have hn := List.findSome?_eq_none_iff.1 h (k, i) (List.mem_zipIdx_iff_getElem?.2 hi)
  simpa using hn

/-- The move that comes first is possible. -/
theorem exists_step_of_next? {worker : Nat} {m : Move} (h : s.next? settings = some (worker, m)) :
    ∃ t, s.step settings w worker m = some t := by
  obtain ⟨⟨k, i⟩, hk, h⟩ := List.exists_of_findSome?_eq_some h
  obtain ⟨m', hm, he⟩ := Option.map_eq_some_iff.1 h
  cases he
  obtain ⟨r, hr⟩ := Worker.exists_step_of_next? (w := w) hm
  exact ⟨_, step_eq (List.mem_zipIdx_iff_getElem?.1 hk) hr⟩

/-- If no move comes first, none is possible. -/
theorem settled_of_next? (w : World) (h : s.next? settings = none) (worker : Nat) (m : Move) :
    s.step settings w worker m = none := by
  refine Option.eq_none_iff_forall_ne_some.2 fun t ht => ?_
  obtain ⟨k, r, hk, hr, -⟩ := step_parts ht
  rw [Worker.settled_of_next? w (next?_eq_none h (List.mem_of_getElem? hk))] at hr
  cases hr

theorem left_pass_le (w : World) (s : State) (time : Nat) : (s.pass time).left w ≤ s.left w :=
  total_le fun k _ => k.left_le w (Nat.le_max_left _ _)

/-- The time up to the next end of a call leaves less to do. -/
theorem left_pass (w : World) (h : s.next? settings = none) {time : Nat} (hd : s.due? = some time) :
    s.clock.now < time ∧ (s.pass time).left w < s.left w := by
  obtain ⟨k, hk, hm⟩ := List.mem_flatMap.1 (List.min?_mem hd)
  have hlt := Worker.lt_due_of_next? (next?_eq_none h hk) hm
  refine ⟨hlt, total_lt (fun k _ => k.left_le w (Nat.le_max_left _ _)) hk ?_⟩
  exact Worker.left_lt w hm hlt (Nat.le_max_right _ _)

/-- As long as nothing ends, workers without jobs have nothing to do. -/
theorem next?_pass {time : Nat} (hb : s.isBusy = false) (h : s.next? settings = none)
    (hd : ∀ d, s.due? = some d → time < d) : (s.pass time).next? settings = none := by
  refine List.findSome?_eq_none_iff.2 fun ⟨k, i⟩ hk => ?_
  have hk : k ∈ s.workers := List.mem_of_getElem? (List.mem_zipIdx_iff_getElem?.1 hk)
  have hkn := next?_eq_none h hk
  rw [Option.map_eq_none_iff]
  refine Worker.next?_later (Bool.eq_false_iff.2 (List.any_eq_false.1 hb k hk)) hkn fun d hdk => ?_
  have hm : d ∈ s.workers.flatMap (·.dues) := List.mem_flatMap.2 ⟨k, hk, hdk⟩
  obtain ⟨due, hdue⟩ : ∃ due, s.due? = some due := Option.ne_none_iff_exists'.1 fun hnone => by
    have hnil := List.min?_eq_none_iff.1 hnone
    rw [hnil] at hm
    cases hm
  have hle : due ≤ d := (List.min?_eq_some_iff.1 hdue).2 d hm
  exact Nat.max_lt.2 ⟨Worker.lt_due_of_next? hkn hdk, Nat.lt_of_lt_of_le (hd due hdue) hle⟩

/-- Workers that can do nothing and wait for nothing have no job. -/
theorem not_busy_of_next? (w : World) (q : s.Queued) (h : s.next? settings = none)
    (hd : s.due? = none) : s.isBusy = false := by
  refine Bool.eq_false_iff.2 fun hb => ?_
  obtain ⟨k, hk, hb⟩ := List.any_eq_true.1 hb
  have hn : k.dues = [] := List.flatMap_eq_nil_iff.1 (List.min?_eq_none_iff.1 hd) k hk
  obtain ⟨m, r, hr⟩ := Worker.exists_step settings w hb (q k hk)
    fun d hm => absurd (hn ▸ hm) List.not_mem_nil
  rw [Worker.settled_of_next? w (next?_eq_none h hk)] at hr
  cases hr

end State

/-! ## Bounds -/

theorem Send.total_left_le (now : Nat) (sends : List (DeviceToken × Send)) :
    total (sends.map (·.2.left now)) ≤ 6 * sends.length := by
  induction sends with
  | nil => exact Nat.le_refl _
  | cons p sends ih =>
    have hp : p.2.left now ≤ 6 := by
      cases p.2 with
      | flying call => exact Nat.add_le_add_left (call.wait_le_one _) 5
      | _ => simp [left]
    simp only [List.map_cons, total_cons, List.length_cons]
    omega

theorem Errand.cost_le_bound (w : World) (e : Errand) : e.cost w ≤ e.bound w := by
  unfold cost bound; omega

theorem Flight.left_le_bound (w : World) (now : Nat) (f : Flight) : f.left w now ≤ f.bound w := by
  unfold left bound Errand.bound Errand.user
  cases f.stage with
  | fresh => simp only [Stage.left]; omega
  | checking window call | recording window call | storing entry call =>
    have hp := call.wait_le_one now
    simp only [Stage.left]
    omega
  | lookingUp call =>
    have hp := call.wait_le_one now
    obtain ⟨due, answer⟩ := call
    cases answer <;> simp only [Stage.left, count] <;> omega
  | sending sends =>
    have hp := Send.total_left_le now sends
    simp only [Stage.left]
    omega

theorem Worker.left_le_bound (w : World) (now : Nat) (k : Worker) : k.left w now ≤ k.bound w := by
  have hw : total (k.waiting.map (·.cost w)) ≤ total (k.waiting.map (·.bound w)) :=
    total_le fun e _ => e.cost_le_bound w
  have hf : total (k.flights.map (·.left w now)) ≤ total (k.flights.map (·.bound w)) :=
    total_le fun f _ => f.left_le_bound w now
  have hs : sinkLeft now k.sink ≤ 4 * k.sink.queue.items.length + 4 := by
    unfold sinkLeft
    cases k.sink.removal with
    | none => simp only [Option.elim_none]; omega
    | some p =>
      have hp := p.wait_le_one now
      simp only [Option.elim_some]
      omega
  unfold left bound
  omega

theorem State.left_lt_bound (w : World) (s : State) : s.left w < s.bound w :=
  Nat.lt_succ_of_le (total_le fun k _ => k.left_le_bound w s.clock.now)

end Delivery

end Herald
