import Herald.Proofs.Delivery.Queue

/-!
# Deliveries come to an end

However calls are replied to and whichever move comes first, workers run out of work: every move
brings an errand closer to the lookup of its devices, or it brings what follows closer to its end.
Until then something can always be done, if not at once then after a while.

* `Stage.early`, `Stage.late`: how far an errand is from the answer to its lookup, and from its end.
* `State.exists_step`: a worker that has a job does not get stuck.
* `State.ends`: workers come to have no job.
-/

namespace Herald.Delivery

variable {settings : Settings} {w : World}

/-! ## How much is left -/

/-- How far an errand is from the answer to its lookup. -/
def Stage.early : Stage → Nat
  | fresh => 3
  | checking _ _ => 2
  | lookingUp _ => 1
  | _ => 0

/-- How much a send has before it, with the removal of its token. -/
def Send.load : Send → Nat
  | flying _ => 4
  | parked _ => 3
  | ended => 0

def Send.loads (sends : List (DeviceToken × Send)) : Nat := total (sends.map (·.2.load))

/-- How much an errand has before it after its lookup. -/
def Stage.late : Stage → Nat
  | sending sends => 3 + Send.loads sends
  | recording _ _ => 2
  | storing _ _ => 1
  | _ => 0

/-- How much a sink has before it. -/
def sinkLoad (sink : Cleanup.Sink) : Nat :=
  2 * sink.queue.items.length + if sink.removal.isSome then 1 else 0

namespace Worker

def early (k : Worker) : Nat := 4 * k.waiting.length + total (k.flights.map (·.stage.early))

def late (k : Worker) : Nat := total (k.flights.map (·.stage.late)) + sinkLoad k.sink

end Worker

/-! ## Sends -/

namespace Send

variable {e : Errand} {index : Nat} {token : DeviceToken} {s : Scene}

/-- A token that is handed to the sink or let go. -/
theorem load_park : (park token s).1.load + 2 * (park token s).2.queue.items.length <
    4 + 2 * s.queue.items.length := by
  unfold park
  split
  · simp [load]
  · next h =>
    rcases Channel.send?_cases h with ⟨-, hi, -⟩ | ⟨h, -⟩
    · simp only [load, hi, List.length_append, List.length_singleton]; omega
    · cases h
  · next h =>
    rcases Channel.send?_cases h with ⟨h, -⟩ | ⟨-, hi, -⟩
    · cases h
    · simp only [load, hi]; omega

/-- A send that is ready comes closer to its end. -/
theorem load_proceed (e : Errand) (index : Nat) (token : DeviceToken) {send : Send}
    (h : send.isReady s = true) :
    (send.proceed e index token s).1.load + 2 * (send.proceed e index token s).2.queue.items.length <
      send.load + 2 * s.queue.items.length := by
  cases send with
  | flying call =>
    simp only [proceed, show call.isOver s.now = true from h, if_true]
    split
    · exact load_park (s := s.note _)
    · simp [load, Scene.note]
  | parked ticket =>
    obtain ⟨⟨a, d⟩, hd⟩ := Channel.enter?_of_calls h
    obtain ⟨-, hi, -⟩ := Channel.enter?_cases hd
    simp only [proceed, hd, load, hi, List.length_append, List.length_singleton]
    omega
  | ended => cases h

/-- A send that is not ready stays as it is, and so does the scene. -/
theorem proceed_of_not_ready {send : Send} (h : send.isReady s = false) :
    send.proceed e index token s = (send, s) := by
  cases send with
  | flying call => simp only [proceed, show call.isOver s.now = false from h]; rfl
  | parked ticket => simp only [proceed, Channel.enter?_eq_none h]
  | ended => rfl

theorem loads_proceedAll_le (e : Errand) (index : Nat) (sends : List (DeviceToken × Send))
    (s : Scene) : loads (proceedAll e index sends s).1 +
      2 * (proceedAll e index sends s).2.queue.items.length ≤
      loads sends + 2 * s.queue.items.length := by
  induction sends generalizing index s with
  | nil => exact Nat.le_refl _
  | cons p sends ih =>
    obtain ⟨token, send⟩ := p
    have ht := ih (index + 1) (send.proceed e index token s).2
    simp only [proceedAll, loads, List.map_cons, total_cons] at ht ⊢
    cases hr : send.isReady s with
    | true => have hp := load_proceed e index token hr; omega
    | false =>
      simp only [proceed_of_not_ready hr] at ht ⊢
      omega

theorem loads_proceedAll_lt {sends : List (DeviceToken × Send)} (e : Errand) (index : Nat)
    (h : sends.any (·.2.isReady s) = true) : loads (proceedAll e index sends s).1 +
      2 * (proceedAll e index sends s).2.queue.items.length <
      loads sends + 2 * s.queue.items.length := by
  induction sends generalizing index with
  | nil => cases h
  | cons p sends ih =>
    obtain ⟨token, send⟩ := p
    simp only [proceedAll, loads, List.map_cons, total_cons]
    cases hr : send.isReady s with
    | true =>
      have hp := load_proceed e index token hr
      have ht := loads_proceedAll_le e (index + 1) sends (send.proceed e index token s).2
      simp only [loads] at ht
      omega
    | false =>
      have ht := ih (index + 1) (by simpa [hr] using h)
      simp only [loads] at ht
      simp only [proceed_of_not_ready hr]
      omega

end Send

/-! ## Turns -/

/-- What an outcome of a turn still has before it. -/
def lateOf (out : Option Stage × Scene) : Nat :=
  (out.1.elim 0 Stage.late) + 2 * out.2.queue.items.length

section

variable (settings : Settings) (w : World) (e : Errand) (s : Scene)

theorem store_late : ((store settings w e s).1.elim 0 Stage.early) = 0 ∧
    lateOf (store settings w e s) ≤ 1 + 2 * s.queue.items.length := by
  unfold store
  split <;> simp [lateOf, Stage.early, Stage.late, conclude, Scene.note]

theorem record_late : ((record settings w e s).1.elim 0 Stage.early) = 0 ∧
    lateOf (record settings w e s) ≤ 2 + 2 * s.queue.items.length := by
  unfold record
  split
  · obtain ⟨he, hl⟩ := store_late settings w e s
    exact ⟨he, by omega⟩
  · simp [lateOf, Stage.early, Stage.late, Scene.note]

/-- A turn brings an errand closer to the answer to its lookup, or closer to its end. -/
theorem proceed_decreases {s : Scene} {stage : Stage} (hr : stage.isReady s = true) :
    ((proceed settings w e s stage).1.elim 0 Stage.early) < stage.early ∨
    ((proceed settings w e s stage).1.elim 0 Stage.early) = stage.early ∧
      lateOf (proceed settings w e s stage) < stage.late + 2 * s.queue.items.length := by
  cases stage with
  | fresh =>
    left
    show ((check settings w e s).1.elim 0 Stage.early) < 3
    unfold check
    split <;> simp [lookUp, Stage.early]
  | checking window call =>
    left
    simp only [proceed]
    split <;> simp [lookUp, conclude, Stage.early]
  | lookingUp call =>
    left
    simp only [proceed]
    split <;> simp [conclude, Stage.early]
  | sending sends =>
    right
    simp only [proceed]
    split
    · obtain ⟨he, hl⟩ := record_late settings w e s
      exact ⟨he, by simp only [Stage.late]; omega⟩
    · next hall =>
      refine ⟨rfl, ?_⟩
      have hany : sends.any (·.2.isReady s) = true :=
        (Bool.or_eq_true_iff.1 hr).resolve_left hall
      have hlt := Send.loads_proceedAll_lt e 0 hany
      simp only [lateOf, Option.elim_some, Stage.late]
      omega
  | recording window call =>
    right
    simp only [proceed]
    split
    · obtain ⟨he, hl⟩ := store_late settings w e
        (s.write (·.setMark window.key (s.now + window.ttl)))
      refine ⟨he, ?_⟩
      simp only [Stage.late, Scene.write] at hl ⊢
      omega
    · obtain ⟨he, hl⟩ := store_late settings w e s
      exact ⟨he, by simp only [Stage.late]; omega⟩
  | storing entry call =>
    right
    simp only [proceed]
    split <;> simp [conclude, lateOf, Stage.early, Stage.late, Scene.note, Scene.write]

end

/-! ## Moves -/

/-- Every move of a worker leaves less to do: before lookups, or after them. -/
theorem Move.Step.decreases {clock : ClockedCache} {k : Worker} {m : Move}
    {r : Worker × ClockedCache × List Happening} (h : Move.Step settings w clock k m r) :
    r.1.early < k.early ∨ r.1.early = k.early ∧ r.1.late < k.late := by
  cases h with
  | start he =>
    left
    simp only [Worker.early, he, List.map_append, total_append, List.length_cons, List.map_cons,
      List.map_nil, total_cons, total_nil, Stage.early]
    omega
  | @turn position f out flights hf hr ho hp =>
    have hk := perm_eraseIdx hf
    have hd := proceed_decreases settings w f.errand hr
    have hearly (g : Stage → Nat) : total (flights.map (g ·.stage)) =
        out.1.elim 0 g + total ((k.flights.eraseIdx position).map (g ·.stage)) := by
      rw [total_perm (hp.map _), List.map_append, total_append]
      cases out.1 <;> simp
    have hbefore (g : Stage → Nat) : total (k.flights.map (g ·.stage)) =
        g f.stage + total ((k.flights.eraseIdx position).map (g ·.stage)) :=
      total_perm (hk.map _)
    rw [ho] at hd
    simp only [Worker.early, Worker.late, sinkLoad, hearly, hbefore]
    simp only [lateOf, Worker.scene] at hd
    omega
  | take h =>
    right
    obtain ⟨hn, queue, e, rfl⟩ := Cleanup.Sink.take?_cases h
    obtain ⟨hi, -⟩ := Channel.receive?_cases e
    refine ⟨rfl, ?_⟩
    simp only [Worker.late, sinkLoad, hn, hi, List.length_cons, Option.isSome_some,
      Option.isSome_none, if_true, Bool.false_eq_true, if_false]
    omega
  | finish h =>
    right
    obtain ⟨p, hs, -, rfl⟩ := Cleanup.Sink.finish?_cases h
    refine ⟨rfl, ?_⟩
    simp [Worker.late, sinkLoad, hs]

/-- A flight that has something to do can take its turn. -/
theorem Worker.exists_turn {clock : ClockedCache} {k : Worker} {f : Flight} (hf : f ∈ k.flights)
    (hr : f.stage.isReady (k.scene clock) = true) : ∃ m r, k.step settings w clock m = some r := by
  obtain ⟨position, hp⟩ := List.mem_iff_getElem?.1 hf
  refine ⟨.turn position, ?_⟩
  simp only [step, hp, hr, if_true]
  exact ⟨_, rfl⟩

theorem Stage.ready_of_ticket {s : Scene} {stage : Stage} {ticket : Nat}
    (h : ticket ∈ stage.tickets) (hc : s.queue.calls ticket = true) : stage.isReady s = true := by
  cases stage with
  | sending sends =>
    obtain ⟨p, hp, ht⟩ := List.mem_filterMap.1 h
    refine Bool.or_eq_true_iff.2 (.inr (List.any_eq_true.2 ⟨p, hp, ?_⟩))
    cases hs : p.2 with
    | parked t =>
      rw [hs] at ht
      cases ht
      exact hc
    | _ => rw [hs] at ht; cases ht
  | _ => cases h

/-- A sink that is not idle can go on once its removal is over. -/
theorem Worker.exists_step_of_sink (settings : Settings) (w : World) {clock : ClockedCache}
    {k : Worker} (h : k.sink.isIdle = false) (hd : ∀ p ∈ k.sink.removal, p.due ≤ clock.now) :
    ∃ m r, k.step settings w clock m = some r := by
  cases hr : k.sink.removal with
  | some p =>
    have ho : p.isOver clock.now = true := decide_eq_true (hd p hr)
    refine ⟨.finish, ?_⟩
    simp only [step, Cleanup.Sink.finish?, hr, ho, if_true, Option.map_some]
    exact ⟨_, rfl⟩
  | none =>
    refine ⟨.take, ?_⟩
    cases e : k.sink.queue.receive? with
    | none => simp [Cleanup.Sink.isIdle, hr, Channel.receive?_eq_none.1 e] at h
    | some p =>
      simp only [step, Cleanup.Sink.take?, hr, e, Option.map_some]
      exact ⟨_, rfl⟩

/-- If sends are parked, one of them is called in, or the sink makes room. -/
theorem Worker.exists_step_of_waiting {clock : ClockedCache} {k : Worker}
    (q : Queued k.tickets k.sink.queue) (hw : k.sink.queue.waiting ≠ [])
    (hd : ∀ d ∈ k.dues, d ≤ clock.now) : ∃ m r, k.step settings w clock m = some r := by
  by_cases hi : k.sink.queue.items.length < k.sink.queue.capacity
  · obtain ⟨p, hp, hc⟩ := Channel.exists_calls hw hi
    have ht : p.1 ∈ k.tickets := q.perm.mem_iff.2 (List.mem_map_of_mem hp)
    obtain ⟨f, hf, ht⟩ := List.mem_flatMap.1 ht
    exact exists_turn hf (Stage.ready_of_ticket ht hc)
  · refine exists_step_of_sink settings w ?_ fun p hp =>
      hd p.due (List.mem_append_right _ (by simp [Option.mem_def.1 hp]))
    have hroom := q.room
    have hne : k.sink.queue.items ≠ [] := fun hn => by rw [hn] at hi; exact hi hroom
    simp [Cleanup.Sink.isIdle, hne]

/-- Once the calls under way are over, a worker with a job can make a move. -/
theorem Worker.exists_step (settings : Settings) (w : World) {clock : ClockedCache} {k : Worker}
    (hb : k.isBusy = true) (q : Queued k.tickets k.sink.queue) (hd : ∀ d ∈ k.dues, d ≤ clock.now) :
    ∃ m r, k.step settings w clock m = some r := by
  have hdue : ∀ f ∈ k.flights, ∀ d ∈ f.stage.dues, d ≤ clock.now := fun f hf d hm =>
    hd d (List.mem_append_left _ (List.mem_flatMap.2 ⟨f, hf, hm⟩))
  cases hk : k.flights with
  | nil =>
    cases hw : k.waiting with
    | nil => simp [isBusy, hk, hw] at hb
    | cons e rest =>
      refine ⟨.start, ?_⟩
      have hr : 0 < room settings := Nat.lt_of_lt_of_le Nat.zero_lt_one (Nat.le_max_right _ _)
      simp only [step, hw, hk, List.length_nil, hr, if_true]
      exact ⟨_, rfl⟩
  | cons f rest =>
    have hf : f ∈ k.flights := by rw [hk]; exact List.mem_cons_self ..
    have hover := hdue f hf
    cases hs : f.stage with
    | fresh => exact exists_turn hf (by rw [hs]; rfl)
    | checking window call | lookingUp call | recording window call | storing entry call =>
      refine exists_turn hf ?_
      rw [hs] at hover ⊢
      exact decide_eq_true (hover call.due (List.mem_cons_self ..))
    | sending sends =>
      by_cases hany : f.stage.isReady (k.scene clock) = true
      · exact exists_turn hf hany
      · -- Nobody is in flight any more, so that some send is parked.
        rw [hs] at hany hover
        obtain ⟨hall, hnot⟩ := not_or.1 (fun h => hany (Bool.or_eq_true_iff.2 h))
        obtain ⟨p, hp, hp'⟩ : ∃ p ∈ sends, p.2.isEnded = false := by simpa using hall
        have hticket : ∃ ticket, p.2.ticket? = some ticket := by
          cases hps : p.2 with
          | flying call =>
            have hle := hover call.due (List.mem_filterMap.2 ⟨p, hp, by rw [hps]; rfl⟩)
            refine absurd (List.any_eq_true.2 ⟨p, hp, ?_⟩) hnot
            rw [hps]
            exact decide_eq_true hle
          | parked ticket => exact ⟨ticket, rfl⟩
          | ended => rw [hps] at hp'; cases hp'
        obtain ⟨ticket, ht⟩ := hticket
        have hmem : ticket ∈ k.tickets := List.mem_flatMap.2
          ⟨f, hf, by rw [hs]; exact List.mem_filterMap.2 ⟨p, hp, ht⟩⟩
        refine exists_step_of_waiting q ?_ hd
        intro hn
        have hm := q.perm.mem_iff.1 hmem
        rw [hn] at hm; cases hm

/-! ## Workers side by side -/

namespace State

def early (s : State) : Nat := total (s.workers.map (·.early))

def late (s : State) : Nat := total (s.workers.map (·.late))

/-- Some worker makes a move, now or later. -/
def Goes (settings : Settings) (s t : State) : Prop :=
  ∃ time w worker m, (s.pass time).step settings w worker m = some t

/-- However things go on, they go on until no worker has a job. -/
inductive Ends (settings : Settings) : State → Prop
  | idle {s : State} : s.isBusy = false → Ends settings s
  | go {s : State} :
    (∀ w, ∃ time worker m t, (s.pass time).step settings w worker m = some t) →
    (∀ t, Goes settings s t → Ends settings t) → Ends settings s

/-- The tickets of each worker are in line with the queue of its sink. -/
def Queued (s : State) : Prop := ∀ k ∈ s.workers, Delivery.Queued k.tickets k.sink.queue

variable {s t : State}

theorem Queued.step {worker : Nat} {m : Move} (q : s.Queued)
    (h : s.step settings w worker m = some t) : t.Queued := by
  obtain ⟨k, r, hk, hr, rfl⟩ := step_cases h
  intro k' hk'
  rcases List.mem_or_eq_of_mem_set hk' with hk' | rfl
  · exact q k' hk'
  · exact (q k (List.mem_of_getElem? hk)).step hr

theorem Queued.act {a : Act} (q : s.Queued) (h : s.act settings a = some t) : t.Queued := by
  cases a with
  | assign worker job number =>
    simp only [State.act, Option.ite_none_right_eq_some, Option.some.injEq] at h
    obtain ⟨hlt, rfl⟩ := h
    intro k hk
    rw [workers_assign (List.getElem?_eq_getElem hlt)] at hk
    rcases List.mem_or_eq_of_mem_set hk with hk | rfl
    · exact q k hk
    · exact q s.workers[worker] (List.getElem_mem hlt)
  | move w worker m => exact q.step h
  | pass time => cases h; exact q

/-- Every move leaves less to do: before lookups, or after them. -/
theorem Goes.decreases (h : Goes settings s t) :
    t.early < s.early ∨ t.early = s.early ∧ t.late < s.late := by
  obtain ⟨time, w, worker, m, h⟩ := h
  obtain ⟨k, r, hk, hr, rfl⟩ := step_cases h
  have hlt := (List.getElem?_eq_some_iff.1 hk).1
  have hbefore (g : Worker → Nat) : total (s.workers.map g) =
      g k + total ((s.workers.eraseIdx worker).map g) := by
    exact total_perm ((perm_eraseIdx hk).map g)
  have hafter (g : Worker → Nat) : total ((s.workers.set worker r.1).map g) =
      g r.1 + total ((s.workers.eraseIdx worker).map g) :=
    total_perm ((List.set_perm_cons_eraseIdx hlt r.1).map g)
  have hd := hr.decreases
  have hsp : (s.pass time).workers = s.workers := rfl
  simp only [early, late, hsp, hbefore, hafter]
  omega

/-- A worker that has a job does not get stuck. -/
theorem exists_step (q : s.Queued) (hb : s.isBusy = true) (w : World) :
    ∃ time worker m t, (s.pass time).step settings w worker m = some t := by
  obtain ⟨k, hk, hb⟩ := List.any_eq_true.1 hb
  obtain ⟨worker, hw⟩ := List.mem_iff_getElem?.1 hk
  have hd : ∀ d ∈ k.dues, d ≤ (s.pass (total k.dues)).clock.now := fun d hm =>
    Nat.le_trans (le_total_of_mem hm) (Nat.le_max_right _ _)
  obtain ⟨m, r, hr⟩ := Worker.exists_step settings w hb (q k hk) hd
  exact ⟨total k.dues, worker, m, _, step_eq (s := s.pass (total k.dues)) hw hr⟩

/-- Workers run out of work, whatever is replied to calls and whichever move comes first. -/
theorem ends (q : s.Queued) : Ends settings s := by
  generalize ha : s.early = a
  generalize hl : s.late = l
  induction a using Nat.strongRecOn generalizing s l with
  | ind a iha =>
    induction l using Nat.strongRecOn generalizing s with
    | ind l ihl =>
      cases hb : s.isBusy with
      | false => exact .idle hb
      | true =>
        refine .go (exists_step q hb) ?_
        intro t hg
        have hq : t.Queued := by
          obtain ⟨time, w, worker, m, h⟩ := hg
          exact Queued.step (s := s.pass time) q h
        rcases hg.decreases with hd | ⟨he, hd⟩
        · exact iha t.early (ha ▸ hd) hq rfl t.late rfl
        · exact ihl t.late (hl ▸ hd) hq (he.trans ha) rfl

end State

end Herald.Delivery
