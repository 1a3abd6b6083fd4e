import Herald.Proofs.Delivery.Step

/-!
# Numbers of jobs make no difference

Jobs are numbered so that one can tell what was done for which of them. No worker looks at the
numbers, so that everything goes on alike with others, or without them.

* `State.plain`: workers whose jobs have no numbers.
* `State.step_plain`: a move of theirs.
* `State.next?_plain`, `State.due?_plain`: what comes first is the same, and what is waited for.
-/

namespace Herald

/-- The call is made while a message is being prepared. -/
def Call.isPreparatory : Call → Bool
  | displayName _ | room _ | settings _ | followers _ | activeUsers _ => true
  | _ => false

namespace Delivery

/-! ## Without numbers -/

/-- The errand without the number of its job. -/
def Errand.plain (e : Errand) : Errand := { e with job := 0 }

def Flight.plain (f : Flight) : Flight := { f with errand := f.errand.plain }

def Worker.plain (k : Worker) : Worker :=
  { k with waiting := k.waiting.map (·.plain), flights := k.flights.map (·.plain) }

/-- What happened, without numbers; none for a call that prepares a message. -/
def Happening.plain? : Happening → Option Happening
  | began e => some (began e.plain)
  | called c => if c.isPreparatory then none else some (called c)
  | checked e marked => some (checked e.plain marked)
  | found e answer => some (found e.plain answer)
  | sent e index token => some (sent e.plain index token)
  | answered e index token answer => some (answered e.plain index token answer)
  | ended e => some (ended e.plain)

def Scene.plain (s : Scene) : Scene := { s with log := s.log.filterMap (·.plain?) }

/-- Workers whose jobs have no numbers, and what happened apart from preparations. -/
def State.plain (s : State) : State :=
  { s with workers := s.workers.map (·.plain), log := s.log.filterMap (·.plain?) }

theorem errands_plain (j : Job) (number : Nat) : (j.errands number).map (·.plain) = j.errands 0 := by
  simp [Job.errands, Errand.plain]

/-! ## Sends -/

namespace Send

theorem park_plain (token : DeviceToken) (s : Scene) :
    park token s.plain = ((park token s).1, (park token s).2.plain) := by
  have hq : s.plain.queue = s.queue := rfl
  unfold park
  rw [hq]
  split <;> rfl

theorem proceed_plain (e : Errand) (index : Nat) (token : DeviceToken) (s : Scene) (send : Send) :
    send.proceed e.plain index token s.plain =
      ((send.proceed e index token s).1, (send.proceed e index token s).2.plain) := by
  cases send with
  | flying call =>
    have hn : (s.plain).now = s.now := rfl
    simp only [proceed, hn]
    by_cases ho : call.isOver s.now = true
    · simp only [ho, if_true]
      split
      · exact park_plain token (s.note (.answered e index token call.answer))
      · rfl
    · simp only [ho]
      rfl
  | parked ticket =>
    have hq : s.plain.queue = s.queue := rfl
    simp only [proceed, hq]
    cases s.queue.enter? ticket <;> rfl
  | ended => rfl

theorem proceedAll_plain (e : Errand) (index : Nat) (sends : List (DeviceToken × Send)) (s : Scene) :
    proceedAll e.plain index sends s.plain =
      ((proceedAll e index sends s).1, (proceedAll e index sends s).2.plain) := by
  induction sends generalizing index s with
  | nil => rfl
  | cons p sends ih =>
    obtain ⟨token, send⟩ := p
    simp only [proceedAll, proceed_plain, ih]

theorem beginAll_plain (settings : Settings) (w : World) (e : Errand) (index : Nat)
    (tokens : List DeviceToken) (s : Scene) : beginAll settings w e.plain index tokens s.plain =
      ((beginAll settings w e index tokens s).1, (beginAll settings w e index tokens s).2.plain) := by
  induction tokens generalizing index s with
  | nil => rfl
  | cons token tokens ih =>
    have hnote : s.plain.note (.sent e.plain index token) = (s.note (.sent e index token)).plain := rfl
    have hnow : s.plain.now = s.now := rfl
    simp only [beginAll, hnote, hnow, proceed_plain, ih]

end Send

/-! ## Turns -/

section

variable (settings : Settings) (w : World) (e : Errand) (s : Scene)

theorem store_plain : store settings w e.plain s.plain =
    ((store settings w e s).1, (store settings w e s).2.plain) := by
  have hn : e.plain.notification = e.notification := rfl
  unfold store
  rw [hn]
  split <;> rfl

theorem record_plain : record settings w e.plain s.plain =
    ((record settings w e s).1, (record settings w e s).2.plain) := by
  have hw : e.plain.window? settings.cooldowns = e.window? settings.cooldowns := rfl
  unfold record
  rw [hw]
  split
  · exact store_plain settings w e s
  · rfl

theorem proceed_plain (stage : Stage) : proceed settings w e.plain s.plain stage =
    ((proceed settings w e s stage).1, (proceed settings w e s stage).2.plain) := by
  cases stage with
  | fresh =>
    have hw : e.plain.window? settings.cooldowns = e.window? settings.cooldowns := rfl
    simp only [proceed, check, hw]
    split <;> rfl
  | checking window call =>
    have hc : s.plain.clock = s.clock := rfl
    have hn : s.plain.now = s.now := rfl
    simp only [proceed, hc, hn]
    split <;> rfl
  | lookingUp call =>
    simp only [proceed]
    split
    · rfl
    · next tokens _ =>
      have hb := Send.beginAll_plain settings w e 0 tokens (s.note (.found e call.answer))
      have hnote : (s.note (.found e call.answer)).plain = s.plain.note (.found e.plain call.answer) := rfl
      rw [← hnote, hb]
  | sending sends =>
    simp only [proceed]
    split
    · exact record_plain settings w e s
    · rw [Send.proceedAll_plain]
  | recording window call =>
    simp only [proceed]
    split
    · exact store_plain settings w e (s.write (·.setMark window.key (s.now + window.ttl)))
    · exact store_plain settings w e s
  | storing entry call =>
    simp only [proceed]
    split <;> rfl

end

/-! ## Moves -/

namespace Worker

variable (settings : Settings) (w : World) (clock : ClockedCache) (k : Worker)

theorem reinsert_plain (s : Scene) (before : Stage) (position : Nat) (f : Flight)
    (flights : List Flight) : reinsert s.plain before position f.plain (flights.map (·.plain)) =
      (reinsert s before position f flights).map (·.plain) := by
  have hr : f.plain.stage.isReady s.plain = f.stage.isReady s := rfl
  have hs : f.plain.stage.isSending = f.stage.isSending := rfl
  unfold reinsert
  rw [hr, hs]
  split
  · rw [List.map_set]
  · rw [List.map_append, List.eraseIdx_map, List.map_singleton]

theorem step_plain (m : Move) : k.plain.step settings w clock m =
    (k.step settings w clock m).map fun r => (r.1.plain, r.2.1, r.2.2.filterMap (·.plain?)) := by
  cases m with
  | start =>
    simp only [step, plain, List.length_map]
    cases k.waiting with
    | nil => rfl
    | cons e rest =>
      by_cases h : k.flights.length < room settings
      · simp [h, Flight.plain, Happening.plain?]
      · simp [h]
  | turn position =>
    have hf : k.plain.flights[position]? = (k.flights[position]?).map (·.plain) := List.getElem?_map
    simp only [step, hf]
    cases k.flights[position]? with
    | none => rfl
    | some f =>
      have hr : f.plain.stage.isReady (k.plain.scene clock) = f.stage.isReady (k.scene clock) := rfl
      have hp : proceed settings w f.plain.errand (k.plain.scene clock) f.plain.stage = _ :=
        proceed_plain settings w f.errand (k.scene clock) f.stage
      simp only [Option.map_some, hr, hp]
      by_cases h : f.stage.isReady (k.scene clock) = true
      · simp only [h, if_true, Option.map_some, Option.some.injEq, Prod.mk.injEq]
        generalize proceed settings w f.errand (k.scene clock) f.stage = out
        obtain ⟨next, s⟩ := out
        refine ⟨?_, rfl, rfl⟩
        cases next with
        | none =>
          simp only [plain, List.eraseIdx_map]
          rfl
        | some stage =>
          have hre := reinsert_plain s f.stage position ⟨f.errand, stage⟩ k.flights
          simp only [plain, Flight.plain] at hre ⊢
          rw [hre]
          rfl
      · simp only [h]
        rfl
  | take =>
    simp only [step, plain]
    cases k.sink.take? settings.limit w.removal clock.now <;> rfl
  | finish =>
    simp only [step, plain]
    cases k.sink.finish? clock.now <;> rfl

theorem next?_plain : k.plain.next? settings clock = k.next? settings clock := by
  have hs : k.plain.canStart settings = k.canStart settings := by simp [canStart, plain]
  have hf : k.plain.flights.findIdx? (·.stage.isReady (k.plain.scene clock)) =
      k.flights.findIdx? (·.stage.isReady (k.scene clock)) := by
    simp only [plain, List.findIdx?_map]
    rfl
  unfold next?
  rw [hs, hf]
  rfl

@[simp] theorem dues_plain : k.plain.dues = k.dues := by
  simp [dues, plain, List.flatMap_map, Flight.plain]

@[simp] theorem isBusy_plain : k.plain.isBusy = k.isBusy := by simp [isBusy, plain]

@[simp] theorem bound_plain : k.plain.bound w = k.bound w := by
  simp only [bound, plain, List.map_map]
  rfl

end Worker

namespace State

variable (settings : Settings) (w : World) (s : State)

/-- A move of workers whose jobs have no numbers. -/
theorem step_plain (worker : Nat) (m : Move) :
    s.plain.step settings w worker m = (s.step settings w worker m).map (·.plain) := by
  have hk : s.plain.workers[worker]? = (s.workers[worker]?).map (·.plain) := List.getElem?_map
  simp only [step, hk]
  cases s.workers[worker]? with
  | none => rfl
  | some k =>
    have hr : k.plain.step settings w s.plain.clock m = _ := Worker.step_plain settings w s.clock k m
    simp only [Option.map_some, Option.bind_eq_bind, Option.bind_some, hr]
    cases k.step settings w s.clock m with
    | none => rfl
    | some r => simp [plain, List.map_set]

theorem plain_append (new : List Happening) : ({ s with log := new ++ s.log } : State).plain =
    { s.plain with log := new.filterMap (·.plain?) ++ s.plain.log } := by
  simp [plain]

theorem next?_plain : s.plain.next? settings = s.next? settings := by
  simp only [next?, plain, List.zipIdx_map, List.findSome?_map]
  congr 1
  funext k
  simp [Worker.next?_plain]

@[simp] theorem due?_plain : s.plain.due? = s.due? := by simp [due?, plain, List.flatMap_map]

@[simp] theorem isBusy_plain : s.plain.isBusy = s.isBusy := by
  simp [isBusy, plain, List.any_map, Function.comp_def]

@[simp] theorem bound_plain : s.plain.bound w = s.bound w := by
  simp [bound, plain, Function.comp_def]

theorem assign_plain (worker : Nat) (j : Job) (number : Nat) :
    (s.assign worker j number).plain = s.plain.assign worker j 0 := by
  have hk (k : Worker) : (k.assign j number).plain = k.plain.assign j 0 := by
    simp [Worker.assign, Worker.plain, errands_plain]
  have hw : (s.workers.modify worker (·.assign j number)).map (·.plain) =
      (s.workers.map (·.plain)).modify worker (·.assign j 0) := by
    apply List.ext_getElem?
    intro i
    rw [List.getElem?_map, List.getElem?_modify, List.getElem?_modify, List.getElem?_map]
    cases s.workers[i]? with
    | none => rfl
    | some k =>
      by_cases h : worker = i
      · simp [h, hk]
      · simp [h]
  simp only [assign, plain, hw]

end State

end Delivery

end Herald
