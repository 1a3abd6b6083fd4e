import Herald.Proofs.Delivery.Prompt
import Mathlib.Data.List.Perm.Subperm

/-!
# How long a job takes

The calls of an errand come one after the other, in five stages at most, and each of them ends within
the limit. The errands of a job begin in order as places become free. So the errand at a position is over
after as many times five limits as rounds are needed up to there, unless it has to wait for a place in the
queue of the sink: no errand does if no message is answered with a dead device.

* `Stage.EndsBy`: an errand at a stage ends by a time; `Stage.EndsBy.next` and `Stage.EndsBy.wait` keep it.
* `exists_place`: of those who hold all places, one began a whole round before whoever is next.
* `Paced`: how far a job has come at a time; `Paced.step` and `Paced.wait` keep it.
* `State.Prompt.now_le`, `State.Prompt.done_within`: how long a job takes.
-/

namespace Herald.Delivery

variable {settings : Settings} {w : World} {s t : State} {acts : List Act} {limit : Limit}
  {e : Errand} {scene : Scene} {stage stage' : Stage} {job : Job} {worker number start now time begun : Nat}
  {written : List Happening}

/-! ## Nobody waits for the sink -/

/-- No message of an errand was answered with a dead device. -/
def Unharmed (e : Errand) (log : List Happening) : Prop :=
  ∀ index token, .answered e index token (.error .unregistered) ∉ log

theorem Unharmed.of_append {new : List Happening} (h : Unharmed e (new ++ written)) :
    Unharmed e written :=
  fun index token hm => h index token (List.mem_append_right _ hm)

namespace Send

variable {index : Nat} {sends : List (DeviceToken × Send)}

theorem unparked_proceed {token : DeviceToken} {send : Send} (hs : send.ticket? = none)
    (h : Unharmed e (send.proceed e index token scene).2.log) :
    (send.proceed e index token scene).1.ticket? = none := by
  cases send with
  | flying call =>
    simp only [proceed] at h ⊢
    split
    · next ho =>
      rw [if_pos ho] at h
      split
      · next ha =>
        -- The message is answered with a dead device, and this is written down.
        simp only [ha, log_park] at h
        exact absurd (List.mem_cons_self ..) (h index token)
      · rfl
    · rfl
  | parked ticket => cases hs
  | ended => rfl

theorem unparked_proceedAll (hs : tickets sends = [])
    (h : Unharmed e (proceedAll e index sends scene).2.log) :
    tickets (proceedAll e index sends scene).1 = [] := by
  induction sends generalizing index scene with
  | nil => rfl
  | cons p sends ih =>
    obtain ⟨token, send⟩ := p
    rw [tickets_cons, List.append_eq_nil_iff, Option.toList_eq_nil_iff] at hs
    simp only [proceedAll] at h ⊢
    obtain ⟨-, new, -, hl, -⟩ := log_proceedAll e (index + 1) sends (send.proceed e index token scene).2
    rw [tickets_cons, ih hs.2 h, unparked_proceed hs.1 (hl ▸ h).of_append]
    rfl

theorem unparked_beginAll (settings : Settings) (w : World) {tokens : List DeviceToken}
    (h : Unharmed e (beginAll settings w e index tokens scene).2.log) :
    tickets (beginAll settings w e index tokens scene).1 = [] := by
  induction tokens generalizing index scene with
  | nil => rfl
  | cons token tokens ih =>
    simp only [beginAll] at h ⊢
    obtain ⟨-, new, -, hl, -⟩ := log_beginAll settings w e (index + 1) tokens
      (Send.proceed e index token (scene.note (.sent e index token))
        (flying (.start scene.now settings.limit pushName (w.gateway index token)))).2
    rw [tickets_cons, ih h, unparked_proceed rfl (hl ▸ h).of_append]
    rfl

end Send

/-- As long as no message is answered with a dead device, no send is parked. -/
theorem unparked_turn (hs : stage.tickets = []) (h : Unharmed e (proceed settings w e scene stage).2.log)
    (hn : (proceed settings w e scene stage).1 = some stage') : stage'.tickets = [] := by
  have hlookUp {s : Scene} (hn : (lookUp settings w e s).1 = some stage') : stage'.tickets = [] := by
    cases hn; rfl
  have hstore {s : Scene} (hn : (store settings w e s).1 = some stage') : stage'.tickets = [] := by
    unfold store at hn
    split at hn <;> cases hn
    rfl
  cases stage with
  | fresh =>
    simp only [proceed, check] at hn
    split at hn
    · exact hlookUp hn
    · cases hn; rfl
  | checking window call =>
    simp only [proceed] at hn
    split at hn
    · exact hlookUp hn
    · cases hn
  | lookingUp call =>
    simp only [proceed] at h hn
    split at hn
    · cases hn
    · next ha =>
      simp only [ha] at h
      cases hn
      exact Send.unparked_beginAll settings w (ha ▸ h)
  | sending sends =>
    simp only [proceed] at h hn
    split at hn
    · unfold record at hn
      split at hn
      · exact hstore hn
      · cases hn; rfl
    · next hall =>
      rw [if_neg hall] at h
      cases hn
      exact Send.unparked_proceedAll hs h
  | recording window call =>
    simp only [proceed] at hn
    split at hn <;> exact hstore hn
  | storing entry call =>
    simp only [proceed] at hn
    split at hn <;> cases hn

/-! ## One errand -/

/-- An errand at a stage, which waits for calls only, ends by a time at the latest. -/
structure Stage.EndsBy (limit : Limit) (now deadline : Nat) (stage : Stage) : Prop where
  unparked : stage.tickets = []
  now : now + stage.rest * limit.expiry ≤ deadline
  calls : ∀ d ∈ stage.dues, d + stage.rest * limit.expiry ≤ deadline

namespace Stage.EndsBy

variable {deadline : Nat}

theorem next (h : stage.EndsBy limit now deadline) (hn : stage.Next limit now stage')
    (hu : stage'.tickets = []) : stage'.EndsBy limit now deadline := by
  have hnow := h.now
  cases hn with
  | follows hr hd =>
    -- A call of the next stage takes a limit at most, which the stage before had left.
    have hrest := Nat.mul_le_mul_right limit.expiry (Nat.succ_le_of_lt hr)
    rw [Nat.succ_mul] at hrest
    exact ⟨hu, by omega, fun d hm => by have := (hd d hm).2; omega⟩
  | goes_on hr hd =>
    rw [← hr] at hnow
    exact ⟨hu, hnow, fun d hm => hr ▸ h.calls d (hd hm)⟩

/-- An errand that can do nothing waits for a call. -/
theorem exists_due (h : stage.EndsBy limit now deadline) (hr : stage.isReady scene = false) :
    ∃ d, d ∈ stage.dues := by
  have hu := h.unparked
  cases stage with
  | fresh => cases hr
  | checking | lookingUp | recording | storing => exact ⟨_, List.mem_singleton_self _⟩
  | sending sends =>
    have hall := (Bool.or_eq_false_iff.1 hr).1
    obtain ⟨p, hp, hne⟩ : ∃ p ∈ sends, p.2.isEnded = false := by simpa using hall
    cases hs : p.2 with
    | flying call => exact ⟨call.due, List.mem_filterMap.2 ⟨p, hp, by rw [hs]; rfl⟩⟩
    | parked ticket =>
      have hm : ticket ∈ Send.tickets sends := List.mem_filterMap.2 ⟨p, hp, by rw [hs]; rfl⟩
      rw [show Send.tickets sends = [] from hu] at hm
      cases hm
    | ended => rw [hs] at hne; cases hne

/-- While time passes up to the end of a call, an errand that waits for calls is in time. -/
theorem wait (h : stage.EndsBy limit now deadline) (hr : stage.isReady scene = false)
    (hd : ∀ d ∈ stage.dues, time ≤ d) : stage.EndsBy limit (max now time) deadline := by
  obtain ⟨d, hm⟩ := h.exists_due hr
  have hcall := h.calls d hm
  have htime := hd d hm
  have hnow := h.now
  exact ⟨h.unparked, by omega, h.calls⟩

end Stage.EndsBy

/-! ## One job -/

/-- How long an errand takes at most. -/
def Settings.span (settings : Settings) : Nat := 5 * settings.limit.expiry

/-- When the errand at a position of a job is over at the latest. -/
def Settings.deadline (settings : Settings) (start position : Nat) : Nat :=
  start + (position / Worker.room settings + 1) * settings.span

/-- When a worker is done with a job of some size at the latest. -/
def Settings.jobDeadline (settings : Settings) (start size : Nat) : Nat :=
  start + (size + Worker.room settings - 1) / Worker.room settings * settings.span

/-- Of those who hold all places, one began a whole round before whoever is next. -/
theorem exists_place {places : List Nat} {room : Nat} (hn : places.Nodup) (hb : ∀ q ∈ places, q < begun)
    (hr : 0 < room) (hl : room ≤ places.length) : ∃ q ∈ places, q + room ≤ begun := by
  by_contra hno
  have hlate : ∀ q ∈ places, begun < q + room := fun q hq =>
    Nat.not_le.1 fun hle => hno ⟨q, hq, hle⟩
  -- All of them are among the last ones that began, who are too few.
  have hsub : places ⊆ List.range' (begun + 1 - room) (room - 1) := fun q hq => by
    have := hb q hq
    have := hlate q hq
    rw [List.mem_range'_1]
    omega
  have hle := (hn.subperm hsub).length_le
  rw [List.length_range'] at hle
  omega

/-- How far a worker has come with a job that it started at a time: some errands have begun, and each of
them ends in time; and the next one can still begin in time. -/
structure Paced (settings : Settings) (start : Nat) (job : Job) (number now begun : Nat) (k : Worker) :
    Prop where
  line : k.waiting = (job.errands number).drop begun
  places : (k.flights.map (·.errand.position)).Nodup
  known : ∀ f ∈ k.flights, f.errand ∈ job.errands number ∧ f.errand.position < begun
  inTime : ∀ f ∈ k.flights, f.stage.EndsBy settings.limit now (settings.deadline start f.errand.position)
  queue : k.waiting ≠ [] → now ≤ start + begun / Worker.room settings * settings.span

theorem Worker.room_pos (settings : Settings) : 0 < room settings := Nat.le_max_right ..

/-- The errands of a job are in the order of their positions. -/
theorem Job.position_of_getElem? {position : Nat} (h : (job.errands number)[position]? = some e) :
    e.position = position := by
  simp only [Job.errands, List.getElem?_map, List.getElem?_zipIdx, Option.map_map,
    Option.map_eq_some_iff] at h
  obtain ⟨target, -, rfl⟩ := h
  exact Nat.zero_add position

namespace Paced

variable {k : Worker} {clock : ClockedCache}

theorem of_assign (settings : Settings) (start number : Nat) (job : Job) (hb : k.isBusy = false) :
    Paced settings start job number start 0 (k.assign job number) := by
  obtain ⟨hw, hf⟩ := Worker.isBusy_eq_false.1 hb
  have hnone {P : Flight → Prop} : ∀ f ∈ (k.assign job number).flights, P f := fun f hm => by
    rw [show (k.assign job number).flights = [] from hf] at hm
    cases hm
  refine ⟨by simp [Worker.assign, hw], ?_, hnone, hnone, fun _ => Nat.le_add_right ..⟩
  rw [show (k.assign job number).flights = [] from hf]
  exact .nil

/-- A move of the worker keeps the pace, unless a message is answered with a dead device. -/
theorem step {m : Move} {r : Worker × ClockedCache × List Happening}
    (p : Paced settings start job number clock.now begun k) (h : Move.Step settings w clock k m r)
    (hu : ∀ e ∈ job.errands number, Unharmed e r.2.2) :
    ∃ begun, Paced settings start job number clock.now begun r.1 := by
  cases h with
  | @start e rest he hlt =>
    have hline := p.line
    rw [he] at hline
    have hget : (job.errands number)[begun]? = some e := by
      rw [← List.head?_drop, ← hline]
      rfl
    have hrest : rest = (job.errands number).drop (begun + 1) := by
      rw [← List.tail_drop, ← hline]
      rfl
    have hpos := Job.position_of_getElem? hget
    have hqueue := p.queue (he ▸ List.cons_ne_nil _ _)
    refine ⟨begun + 1, hrest, ?_, fun f hf => ?_, fun f hf => ?_, fun _ => ?_⟩
    · rw [List.map_append]
      refine List.nodup_append.2 ⟨p.places, List.nodup_singleton _, fun q hq q' hq' => ?_⟩
      obtain ⟨f, hf, rfl⟩ := List.mem_map.1 hq
      obtain rfl : q' = e.position := List.mem_singleton.1 hq'
      rw [hpos]
      exact Nat.ne_of_lt (p.known f hf).2
    · rcases List.mem_append.1 hf with hf | hf
      · exact (p.known f hf).imp_right Nat.lt_succ_of_lt
      · obtain rfl := List.mem_singleton.1 hf
        exact ⟨List.mem_of_getElem? hget, Nat.lt_succ_of_le (Nat.le_of_eq hpos)⟩
    · rcases List.mem_append.1 hf with hf | hf
      · exact p.inTime f hf
      · obtain rfl := List.mem_singleton.1 hf
        refine ⟨rfl, ?_, fun d hd => absurd hd List.not_mem_nil⟩
        show clock.now + settings.span ≤ settings.deadline start e.position
        rw [hpos, Settings.deadline, Nat.succ_mul]
        omega
    · refine Nat.le_trans hqueue (Nat.add_le_add_left (Nat.mul_le_mul_right _ ?_) _)
      exact Nat.div_le_div_right (Nat.le_succ _)
  | @turn position f out flights hf hr ho hp =>
    have hmem := List.mem_of_getElem? hf
    have hothers : ∀ g ∈ k.flights.eraseIdx position, g ∈ k.flights := fun g => List.mem_of_mem_eraseIdx
    -- The flight is where it was, or it is over.
    have hnew : ∀ g ∈ flights, (∃ stage, out.1 = some stage ∧ g = ⟨f.errand, stage⟩) ∨ g ∈ k.flights :=
      fun g hg => by
        rcases List.mem_append.1 (hp.mem_iff.1 hg) with hg | hg
        · obtain ⟨stage, hs, rfl⟩ := List.mem_map.1 hg
          exact .inl ⟨stage, Option.mem_toList.1 hs, rfl⟩
        · exact .inr (hothers g hg)
    refine ⟨begun, p.line, ?_, fun g hg => ?_, fun g hg => ?_, p.queue⟩
    · have hplaces := (((perm_eraseIdx hf).map (·.errand.position)).nodup_iff).1 p.places
      rw [(hp.map _).nodup_iff, List.map_append]
      cases out.1 with
      | none => exact (List.nodup_cons.1 hplaces).2
      | some stage => exact hplaces
    · rcases hnew g hg with ⟨stage, -, rfl⟩ | hg
      · exact p.known f hmem
      · exact p.known g hg
    · rcases hnew g hg with ⟨stage, hs, rfl⟩ | hg
      · rw [← ho] at hs
        have hunharmed := ho ▸ hu f.errand (p.known f hmem).1
        exact (p.inTime f hmem).next (next_proceed hs)
          (unparked_turn (p.inTime f hmem).unparked hunharmed hs)
      · exact p.inTime g hg
  | take | finish => exact ⟨begun, p.line, p.places, p.known, p.inTime, p.queue⟩

/-- Time that passes when the worker can do nothing, up to the end of a call, keeps the pace. -/
theorem wait (p : Paced settings start job number clock.now begun k)
    (hn : k.next? settings clock = none) (hd : ∀ d ∈ k.dues, time ≤ d) :
    Paced settings start job number (max clock.now time) begun k := by
  obtain ⟨hs, hf, -, -⟩ := Worker.next?_eq_none hn
  have hdues : ∀ f ∈ k.flights, ∀ d ∈ f.stage.dues, time ≤ d := fun f hf d hm =>
    hd d (List.mem_append_left _ (List.mem_flatMap.2 ⟨f, hf, hm⟩))
  have hwait : ∀ f ∈ k.flights, f.stage.EndsBy settings.limit (max clock.now time)
      (settings.deadline start f.errand.position) := fun f hm =>
    (p.inTime f hm).wait (hf f hm) (hdues f hm)
  refine ⟨p.line, p.places, p.known, hwait, fun hne => ?_⟩
  -- All places are taken, and whoever began a round ago is over before the next one must begin.
  have hfull : Worker.room settings ≤ k.flights.length := by
    simpa [Worker.canStart, hne] using hs
  obtain ⟨q, hq, hle⟩ := exists_place p.places
    (fun q hq => by obtain ⟨f, hf, rfl⟩ := List.mem_map.1 hq; exact (p.known f hf).2)
    (Worker.room_pos settings) (by rwa [List.length_map])
  obtain ⟨f, hm, rfl⟩ := List.mem_map.1 hq
  have hround : f.errand.position / Worker.room settings + 1 ≤ begun / Worker.room settings := by
    rw [← Nat.add_div_right _ (Worker.room_pos settings)]
    exact Nat.div_le_div_right hle
  have hend := Nat.mul_le_mul_right settings.span hround
  have hnow := (hwait f hm).now
  rw [Settings.deadline] at hnow
  omega

/-- As long as the worker has the job, the time for it has not run out. -/
theorem now_le (p : Paced settings start job number now begun k) (hb : k.isBusy = true) :
    now ≤ settings.jobDeadline start job.targets.length := by
  have hroom := Worker.room_pos settings
  have hlength : (job.errands number).length = job.targets.length := by simp [Job.errands]
  by_cases hw : k.waiting = []
  · obtain ⟨f, hf⟩ := List.exists_mem_of_ne_nil k.flights fun hf => by
      rw [Worker.isBusy_eq_false.2 ⟨hw, hf⟩] at hb
      cases hb
    have hpos : f.errand.position < job.targets.length :=
      (List.getElem?_eq_some_iff.1 (Job.mem_errands.1 (p.known f hf).1).2.2).1
    have hround : f.errand.position / Worker.room settings + 1 ≤
        (job.targets.length + Worker.room settings - 1) / Worker.room settings := by
      rw [← Nat.add_div_right _ hroom]
      exact Nat.div_le_div_right (by omega)
    have hend := Nat.mul_le_mul_right settings.span hround
    have hnow := (p.inTime f hf).now
    rw [Settings.deadline] at hnow
    rw [Settings.jobDeadline]
    omega
  · have hbegun : begun ≤ job.targets.length := by
      by_contra hlt
      exact hw (p.line.trans (List.drop_eq_nil_of_le (by omega)))
    refine Nat.le_trans (p.queue hw) (Nat.add_le_add_left (Nat.mul_le_mul_right _ ?_) _)
    exact Nat.div_le_div_right (by omega)

end Paced

/-! ## Runs -/

namespace State

variable {k : Worker}

/-- What was written down stays. -/
theorem log_act {a : Act} (h : s.act settings a = some t) : ∃ new, t.log = new ++ s.log := by
  cases a with
  | assign worker job number =>
    simp only [act, Option.ite_none_right_eq_some, Option.some.injEq] at h
    obtain ⟨-, rfl⟩ := h
    exact ⟨[], rfl⟩
  | move w worker m =>
    obtain ⟨k, r, -, -, rfl⟩ := step_cases h
    exact ⟨r.2.2, rfl⟩
  | pass time => cases h; exact ⟨[], rfl⟩

theorem Run.log (run : Run settings s acts t) : ∃ new, t.log = new ++ s.log := by
  induction run with
  | refl => exact ⟨[], rfl⟩
  | step a _ e ih =>
    obtain ⟨new, h⟩ := log_act e
    obtain ⟨old, ho⟩ := ih
    exact ⟨new ++ old, by rw [h, ho, List.append_assoc]⟩

/-- What happens to a worker by an act. -/
theorem worker_act {a : Act} (hk : s.workers[worker]? = some k) (h : s.act settings a = some t)
    (sole : ∀ job number, a ≠ .assign worker job number) :
    t.workers[worker]? = some k ∨ ∃ w m r, k.step settings w s.clock m = some r ∧
      t.workers[worker]? = some r.1 ∧ t.clock.now = s.clock.now ∧ t.log = r.2.2 ++ s.log := by
  cases a with
  | assign worker' job number =>
    simp only [act, Option.ite_none_right_eq_some, Option.some.injEq] at h
    obtain ⟨-, rfl⟩ := h
    have hne : worker' ≠ worker := fun he => sole job number (he ▸ rfl)
    exact .inl (by simpa [State.assign, hne] using hk)
  | move w worker' m =>
    have hnow := now_step h
    obtain ⟨k', r, hk', hr, rfl⟩ := step_parts h
    by_cases hi : worker' = worker
    · subst hi
      obtain rfl : k = k' := Option.some.inj (hk.symm.trans hk')
      exact .inr ⟨w, m, r, hr, List.getElem?_set_self (List.getElem?_eq_some_iff.1 hk).1, hnow, rfl⟩
    · exact .inl (by simpa [hi] using hk)
  | pass time => cases h; exact .inl hk

/-- A worker that was given a job keeps the pace, as long as no message is answered with a dead
device. -/
theorem Prompt.paced (run : Prompt settings (s.assign worker job number) acts t)
    (hk : s.workers[worker]? = some k) (idle : k.isBusy = false)
    (sole : ∀ job number, .assign worker job number ∉ acts) :
    ∀ new, t.log = new ++ s.log → (∀ e ∈ job.errands number, Unharmed e new) →
      ∃ k begun, t.workers[worker]? = some k ∧
        Paced settings s.clock.now job number t.clock.now begun k := by
  induction run with
  | refl =>
    intro new _ _
    refine ⟨k.assign job number, 0, ?_, .of_assign settings s.clock.now number job idle⟩
    rw [workers_assign hk, List.getElem?_set_self (List.getElem?_eq_some_iff.1 hk).1]
  | @step acts t u a run e ih =>
    intro new hnew hu
    obtain ⟨old, hold⟩ := Run.log (Prompt.run run)
    have hold : t.log = old ++ s.log := hold
    have hact := act_of_prompt e
    have hnone : ∀ job number, a ≠ .assign worker job number := fun job number ha =>
      sole job number (ha ▸ List.mem_cons_self ..)
    have hsplit {l : List Happening} (hl : u.log = l ++ t.log) : new = l ++ old :=
      List.append_cancel_right (hnew.symm.trans (by rw [hl, hold, List.append_assoc]))
    obtain ⟨l, hl⟩ := log_act hact
    obtain ⟨k, begun, hk, p⟩ := ih (fun job number ha => sole job number (List.mem_cons_of_mem _ ha)) old
      hold fun e he => (hsplit hl ▸ hu e he).of_append
    rcases worker_act hk hact hnone with hk' | ⟨w, m, r, hr, hk', hnow, hlog⟩
    · cases a with
      | pass time =>
        obtain ⟨hn, hd, rfl⟩ := prompt_pass e
        have hmem := List.mem_of_getElem? hk
        exact ⟨k, begun, hk, p.wait (next?_eq_none hn hmem) (hd k hmem)⟩
      | assign worker' job' number' =>
        simp only [act, Option.ite_none_right_eq_some, Option.some.injEq] at hact
        obtain ⟨-, rfl⟩ := hact
        exact ⟨k, begun, hk', p⟩
      | move w worker' m => exact ⟨k, begun, hk', now_step hact ▸ p⟩
    · have hunharmed : ∀ e ∈ job.errands number, Unharmed e r.2.2 := fun e he index token hm =>
        hu e he index token (hsplit hlog ▸ List.mem_append_left _ hm)
      obtain ⟨begun, p⟩ := p.step (.of_step hr) hunharmed
      exact ⟨r.1, begun, hk', hnow ▸ p⟩

/-- The worker at a position has a job. -/
def busyAt (worker : Nat) (s : State) : Bool := s.workers[worker]?.any (·.isBusy)

/-- As long as a worker has its job, the time for it has not run out. -/
theorem Prompt.now_le (run : Prompt settings (s.assign worker job number) acts t)
    (hk : s.workers[worker]? = some k) (idle : k.isBusy = false)
    (sole : ∀ job number, .assign worker job number ∉ acts) {new : List Happening}
    (hnew : t.log = new ++ s.log) (hu : ∀ e ∈ job.errands number, Unharmed e new)
    (hb : t.busyAt worker = true) :
    t.clock.now ≤ settings.jobDeadline s.clock.now job.targets.length := by
  obtain ⟨k', begun, hk', p⟩ := Prompt.paced run hk idle sole new hnew hu
  exact p.now_le (by simpa [busyAt, hk'] using hb)

/-- A worker that is done with its job was done in time. -/
theorem Prompt.done_within (run : Prompt settings (s.assign worker job number) acts t)
    (hk : s.workers[worker]? = some k) (idle : k.isBusy = false)
    (sole : ∀ job number, .assign worker job number ∉ acts) :
    ∀ new, t.log = new ++ s.log → (∀ e ∈ job.errands number, Unharmed e new) →
      t.busyAt worker = false → ∃ before after u, acts = after ++ before ∧
        Prompt settings (s.assign worker job number) before u ∧ Prompt settings u after t ∧
        u.busyAt worker = false ∧ u.clock.now ≤ settings.jobDeadline s.clock.now job.targets.length := by
  induction run with
  | refl => exact fun _ _ _ hb => ⟨[], [], _, rfl, .refl, .refl, hb, Nat.le_add_right ..⟩
  | @step acts t u a run e ih =>
    intro new hnew hu hb
    have hact := act_of_prompt e
    have hsole : ∀ job number, .assign worker job number ∉ acts := fun job number ha =>
      sole job number (List.mem_cons_of_mem _ ha)
    obtain ⟨old, hold⟩ := Run.log (Prompt.run run)
    obtain ⟨l, hl⟩ := log_act hact
    have hsplit : new = l ++ old :=
      List.append_cancel_right (hnew.symm.trans (by rw [hl, hold, List.append_assoc]; rfl))
    have hu' : ∀ e ∈ job.errands number, Unharmed e old := fun e he => (hsplit ▸ hu e he).of_append
    cases hbt : t.busyAt worker with
    | false =>
      obtain ⟨before, after, v, rfl, hbefore, hafter, hv, hnow⟩ := ih hsole old hold hu' hbt
      exact ⟨before, a :: after, v, rfl, hbefore, .step a hafter e, hv, hnow⟩
    | true =>
      -- The worker is done by this act, which takes no time.
      have hnow : u.clock.now = t.clock.now := by
        cases a with
        | assign worker' job' number' =>
          simp only [act, Option.ite_none_right_eq_some, Option.some.injEq] at hact
          obtain ⟨-, rfl⟩ := hact
          rfl
        | move w worker' m => exact now_step hact
        | pass time =>
          obtain ⟨-, -, rfl⟩ := prompt_pass e
          exact absurd (hbt.symm.trans hb) (by decide)
      refine ⟨a :: acts, [], u, rfl, .step a run e, .refl, hb, ?_⟩
      exact hnow ▸ Prompt.now_le run hk idle hsole hold hu' hbt

end State

end Herald.Delivery
