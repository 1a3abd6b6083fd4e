import Herald.Proofs.Pipeline.Omission

/-!
# Messages that come to nothing

A message that comes to nothing leaves nothing behind: no job, nothing that is sent, marked, stored or
removed. If the lookups for it take no time, then the messages after it go on as if it had never come.

* `State.Run.handle_outcome`: a message that comes to nothing leaves a pipeline as it was, but for what
  is known of it.
* `State.Run.story_survivors`: so the same is seen of all other messages if it never comes.
-/

namespace Herald.Pipeline

variable {settings : Settings} {w : World} {s t : State} {m : Move} {acts : List (World × Move)}
  {size capacity sinkCapacity : Nat} {e : Event}

/-! ## One message -/

namespace State

theorem AtRest.runFor (rest : s.AtRest settings) (w : World) (n : Nat) :
    s.runFor settings w (fun s _ => s.isBusy) n = s := by
  cases n with
  | zero => rfl
  | succ n =>
    unfold State.runFor
    simp only [rest.next, rest.idle]
    split <;> rfl

/-- A job that comes to an open intake with nothing in it is accepted. -/
theorem mem_accepted_submit {pool : Pool.State Order} (o : Order) (hc : pool.intake.isClosed = false)
    (hi : pool.intake.items = []) (hw : pool.intake.waiting = []) (hp : 0 < pool.intake.capacity) :
    o ∈ (pool.submit o).accepted := by
  have hfree : pool.intake.waiting.length < pool.intake.free := by
    rw [hw]
    unfold Channel.free
    rw [hi]
    exact hp
  have hsend : ∃ intake, pool.intake.send? o = some (none, intake) := by
    unfold Channel.send?
    rw [hc, dif_pos hfree]
    exact ⟨_, rfl⟩
  obtain ⟨intake, hsend⟩ := hsend
  unfold Pool.State.submit
  rw [hsend]
  exact Pool.State.mem_accepted_note _ o

/-- What becomes of a message that comes to a pipeline at rest, if its lookups take no time. -/
def verdict (settings : Settings) (w : World) (s : State) (payload : List UInt8) : Outcome :=
  match Event.decode? payload with
  | none => .malformed
  | some e =>
    match (prepare settings w e).value with
    | .error outcome => outcome
    | .ok job => if s.pool.intake.isClosed then .dispatchFailed else .dispatched job.targets.length

/-- The draft of an event that comes now. -/
def draft (settings : Settings) (w : World) (s : State) (e : Event) : Draft :=
  let t := prepare settings w e
  ⟨s.arrivals, s.now + t.elapsed, t.value⟩

/-- A pipeline in which an event has been looked up and is about to be submitted; no other event is
being prepared. -/
def ready (settings : Settings) (w : World) (s : State) (e : Event) : State :=
  { s.enter settings w e with drafts := [] }

/-- Lookups leave nothing behind. -/
theorem ready_alike (h : s.drafts = []) : (s.ready settings w e).Alike s := by
  refine Alike.mk (congrArg _ h.symm) rfl ?_
  show ({ s.delivery with log := _ ++ s.delivery.log } : Delivery.State).plain = _
  rw [Delivery.State.plain_append, plain_calls preparatory_prepare]
  rfl

/-- A message that needs no time is submitted before anything else happens. -/
theorem Run.handle_event (run : State.Run settings (.create size capacity sinkCapacity) acts s)
    (rest : s.AtRest settings) (prompt : w.Prompt) {payload : List UInt8}
    (he : Event.decode? payload = some e) :
    ∃ before inner,
      State.Run settings (.create size capacity sinkCapacity) before
        ((s.ready settings w e).submit (s.draft settings w e)) ∧
      State.Run settings ((s.ready settings w e).submit (s.draft settings w e)) inner
        (s.handle settings w payload) ∧
      (((s.ready settings w e).submit (s.draft settings w e)).AtRest settings →
        s.handle settings w payload = (s.ready settings w e).submit (s.draft settings w e)) := by
  obtain ⟨hdrafts, -, -⟩ := run.clear rest
  let u := s.enter settings w e
  let t := (s.ready settings w e).submit (s.draft settings w e)
  have harrive : s.arrive settings w payload = u := by unfold State.arrive; rw [he]
  have hdraft : u.drafts = [s.draft settings w e] := congrArg (· ++ [s.draft settings w e]) hdrafts
  have hdue : (s.draft settings w e).due ≤ u.now := Nat.le_of_eq (congrArg (s.now + ·) prompt.elapsed)
  -- The draft is due at once, and what is due comes before all other moves.
  have hnext : u.next? settings = some (.submit 0) := by
    unfold State.next?
    rw [hdraft, List.findIdx?_cons, decide_eq_true hdue]
    rfl
  have hstep : u.step settings w (.submit 0) = some t := by
    simp only [State.step, hdraft, List.getElem?_cons_zero, hdue, if_true]
    rfl
  have runU : State.Run settings (.create size capacity sinkCapacity) ((w, .arrive payload) :: acts) u :=
    .step _ run (congrArg some harrive)
  have hleft : t.left w < u.left w := Step.left_lt (.of_step hstep) rfl runU.workers
  have hbound := u.left_le_bound w
  obtain ⟨n, hn⟩ : ∃ n, u.bound w = n + 1 := ⟨u.bound w - 1, by omega⟩
  have hhandle : s.handle settings w payload = t.runFor settings w (fun s _ => s.isBusy) n := by
    unfold State.handle State.finish State.run
    rw [harrive, hn]
    simp only [State.runFor, hnext, hstep]
  have runT : State.Run settings (.create size capacity sinkCapacity)
    ((w, .submit 0) :: (w, .arrive payload) :: acts) t := .step _ runU hstep
  obtain ⟨inner, -, hr, -⟩ := runT.goesOn w (fun s _ => s.isBusy) (n := n) (by omega)
  exact ⟨_, inner, runT, hhandle ▸ hr, fun ht => hhandle.trans (ht.runFor w n)⟩

/-- A message that is no event leaves a pipeline at rest as it was. -/
theorem handle_malformed (rest : s.AtRest settings) {payload : List UInt8}
    (he : Event.decode? payload = none) :
    (s.handle settings w payload).outcome? s.arrivals = some .malformed ∧
      (s.handle settings w payload).Alike s := by
  have ha : s.arrive settings w payload =
      { s with arrivals := s.arrivals + 1, failures := (s.arrivals, .malformed) :: s.failures } := by
    unfold State.arrive; rw [he]
  have hs : (s.arrive settings w payload).Alike s := ha ▸ Alike.mk rfl rfl rfl
  have hh : s.handle settings w payload = s.arrive settings w payload :=
    (hs.symm.atRest rest).runFor w _
  rw [hh]
  exact ⟨by simp [ha, State.outcome?], hs⟩

/-- So does an event from which no job can be prepared. -/
theorem Run.handle_error (run : State.Run settings (.create size capacity sinkCapacity) acts s)
    (rest : s.AtRest settings) (prompt : w.Prompt) {payload : List UInt8}
    (he : Event.decode? payload = some e) {outcome : Outcome}
    (hr : (prepare settings w e).value = .error outcome) :
    (s.handle settings w payload).outcome? s.arrivals = some outcome ∧
      (s.handle settings w payload).Alike s := by
  obtain ⟨_, _, -, -, hrest⟩ := run.handle_event rest prompt he
  have ht : (s.ready settings w e).submit (s.draft settings w e) =
      { s.ready settings w e with failures := (s.arrivals, outcome) :: s.failures } := by
    unfold State.submit
    rw [show (s.draft settings w e).result = _ from hr]
    rfl
  have hv : ((s.ready settings w e).submit (s.draft settings w e)).Alike s :=
    ht ▸ ready_alike (run.clear rest).1
  rw [hrest (hv.symm.atRest rest)]
  exact ⟨by simp [ht, State.outcome?], hv⟩

/-- A draft with a job in it is submitted. -/
theorem submit_ready {job : Delivery.Job} (h : (prepare settings w e).value = .ok job) :
    (s.ready settings w e).submit (s.draft settings w e) =
      { s.ready settings w e with pool := s.pool.submit ⟨s.arrivals, job⟩ } := by
  unfold State.submit
  rw [show (s.draft settings w e).result = _ from h]
  rfl

/-- So does a job that the pool refuses. -/
theorem Run.handle_refused (run : State.Run settings (.create size capacity sinkCapacity) acts s)
    (rest : s.AtRest settings) (prompt : w.Prompt) {payload : List UInt8}
    (he : Event.decode? payload = some e) {job : Delivery.Job}
    (hr : (prepare settings w e).value = .ok job) (hc : s.pool.intake.isClosed = true) :
    (s.handle settings w payload).outcome? s.arrivals = some .dispatchFailed ∧
      (s.handle settings w payload).Alike s := by
  obtain ⟨_, _, runT, hinner, hrest⟩ := run.handle_event rest prompt he
  obtain ⟨moves, p⟩ := State.Run.provenance (runT.trans hinner)
  have hp : s.pool.submit ⟨s.arrivals, job⟩ = s.pool.note (.refused ⟨s.arrivals, job⟩) := by
    unfold Pool.State.submit; rw [Channel.send?_eq_none.2 hc]
  have ht := (submit_ready (s := s) hr).trans (congrArg ({ s.ready settings w e with pool := · }) hp)
  have hv : ((s.ready settings w e).submit (s.draft settings w e)).Alike s := by
    have h : (s.ready settings w e).Alike s := ready_alike (run.clear rest).1
    exact ht ▸ Alike.mk h.drafts rfl h.delivery
  have hh := hrest (hv.symm.atRest rest)
  refine ⟨p.outcome_of_refused (o := ⟨s.arrivals, job⟩) ?_, hh ▸ hv⟩
  rw [hh, ht]
  exact Pool.State.mem_refused_note s.pool ⟨s.arrivals, job⟩

/-- A job that comes to an open intake is dispatched. -/
theorem Run.handle_accepted (run : State.Run settings (.create size capacity sinkCapacity) acts s)
    (rest : s.AtRest settings) (prompt : w.Prompt) {payload : List UInt8}
    (he : Event.decode? payload = some e) {job : Delivery.Job}
    (hr : (prepare settings w e).value = .ok job) (hc : s.pool.intake.isClosed = false) :
    (s.handle settings w payload).outcome? s.arrivals = some (.dispatched job.targets.length) := by
  obtain ⟨_, _, runT, hinner, -⟩ := run.handle_event rest prompt he
  obtain ⟨moves, p⟩ := State.Run.provenance (runT.trans hinner)
  obtain ⟨-, hwaiting, hitems⟩ := run.clear rest
  obtain ⟨_, q⟩ := run.provenance
  have hcap : 0 < s.pool.intake.capacity := q.pool.sized.intake ▸ Nat.le_max_right _ _
  have ha := mem_accepted_submit ⟨s.arrivals, job⟩ hc (hitems hc) hwaiting hcap
  rw [submit_ready hr] at hinner
  exact p.outcome_of_accepted (o := ⟨s.arrivals, job⟩) (Run.accepted_subset hinner ha)

/-- What becomes of a message is settled when it comes. If it comes to nothing, then the pipeline is
afterwards as it was, but for what is known of the message. -/
theorem Run.handle_outcome (run : State.Run settings (.create size capacity sinkCapacity) acts s)
    (rest : s.AtRest settings) (prompt : w.Prompt) (payload : List UInt8) :
    (s.handle settings w payload).outcome? s.arrivals = some (s.verdict settings w payload) ∧
    ((s.verdict settings w payload).isDispatched = false → (s.handle settings w payload).Alike s) := by
  unfold verdict
  cases he : Event.decode? payload with
  | none =>
    obtain ⟨ho, ha⟩ := handle_malformed rest he
    exact ⟨ho, fun _ => ha⟩
  | some e =>
    cases hr : (prepare settings w e).value with
    | error outcome =>
      obtain ⟨ho, ha⟩ := run.handle_error rest prompt he hr
      simp only [hr]
      exact ⟨ho, fun _ => ha⟩
    | ok job =>
      simp only [hr]
      cases hc : s.pool.intake.isClosed with
      | true =>
        obtain ⟨ho, ha⟩ := run.handle_refused rest prompt he hr hc
        exact ⟨ho, fun _ => ha⟩
      | false =>
        refine ⟨run.handle_accepted rest prompt he hr hc, fun hd => ?_⟩
        simp [Outcome.isDispatched] at hd

theorem Alike.verdict (h : s.Alike t) (payload : List UInt8) :
    s.verdict settings w payload = t.verdict settings w payload := by
  have hc : s.pool.intake.isClosed = t.pool.intake.isClosed := congrArg (·.intake.isClosed) h.pool
  unfold State.verdict
  rw [hc]

end State

/-! ## Messages one after the other -/

/-- Something that is done with a pipeline, and waited for. -/
inductive Input where
  | message (w : World) (payload : List UInt8)
  | wait (w : World) (ms : Nat)
  | stop (w : World)

namespace Input

variable (settings : Settings) (s : State)

/-- If it is a message, then its lookups take no time. -/
def Prompt : Input → Prop
  | message w _ => w.Prompt
  | _ => True

/-- The pipeline afterwards. -/
def feed : Input → State
  | message w payload => s.handle settings w payload
  | wait w ms => s.advance settings w ms
  | stop w => s.stop settings w

/-- What has become of it, if it is a message. -/
def outcome? : Input → Option Outcome
  | message w payload => (s.handle settings w payload).outcome? s.arrivals
  | _ => none

end Input

/-- What is seen once something is done: what has become of the message, the time and the cache, the
workers, and all that has happened to deliveries so far. -/
structure Sight where
  outcome? : Option Outcome
  delivery : Delivery.State

/-- The sight of a message that came to nothing. -/
def Sight.isFutile (x : Sight) : Bool := x.outcome?.any (!·.isDispatched)

def Input.sight (settings : Settings) (s : State) (i : Input) : Sight :=
  ⟨i.outcome? settings s, (i.feed settings s).delivery.plain⟩

/-- What is seen of a pipeline while things are done with it. -/
def story (settings : Settings) (s : State) : List Input → List Sight
  | [] => []
  | i :: inputs => i.sight settings s :: story settings (i.feed settings s) inputs

/-- What is done without the messages that come to nothing. -/
def survivors (settings : Settings) (s : State) : List Input → List Input
  | [] => []
  | i :: inputs =>
    if (i.sight settings s).isFutile then survivors settings (i.feed settings s) inputs
    else i :: survivors settings (i.feed settings s) inputs

namespace State

/-- A pipeline at rest is at rest again afterwards. -/
theorem Run.feed (run : State.Run settings (.create size capacity sinkCapacity) acts s)
    (rest : s.AtRest settings) (i : Input) :
    ∃ acts, State.Run settings (.create size capacity sinkCapacity) acts (i.feed settings s) ∧
      (i.feed settings s).AtRest settings := by
  have hfinish {acts : List (World × Move)} {t : State} (w : World)
      (run : State.Run settings (.create size capacity sinkCapacity) acts t) :
      ∃ acts, State.Run settings (.create size capacity sinkCapacity) acts (t.finish settings w) ∧
        (t.finish settings w).AtRest settings := by
    obtain ⟨inner, -, hr, hrest⟩ := run.finish w
    exact ⟨_, run.trans hr, hrest⟩
  cases i with
  | message w payload => exact hfinish w (.step (w, .arrive payload) run rfl)
  | wait w ms =>
    obtain ⟨inner, -, hr, hrest⟩ := run.advance rest w ms
    exact ⟨_, run.trans hr, hrest⟩
  | stop w =>
    have hstop : ∃ acts, State.Run settings (.create size capacity sinkCapacity) acts
        ((s.step settings w .stop).getD s) := by
      cases h : s.step settings w .stop with
      | none => exact ⟨_, run⟩
      | some t => exact ⟨(w, .stop) :: acts, Trace.step _ run h⟩
    exact hfinish w hstop.choose_spec

theorem Alike.feed (h : s.Alike t) (i : Input) : (i.feed settings s).Alike (i.feed settings t) := by
  cases i with
  | message w payload => exact h.handle payload
  | wait w ms => exact h.advance ms
  | stop w => exact h.stop

/-- Pipelines that are alike make the same of a message. -/
theorem Alike.outcome? {acts' : List (World × Move)} (h : s.Alike t)
    (run : State.Run settings (.create size capacity sinkCapacity) acts s)
    (run' : State.Run settings (.create size capacity sinkCapacity) acts' t)
    (rest : s.AtRest settings) {i : Input} (prompt : i.Prompt) :
    i.outcome? settings s = i.outcome? settings t := by
  cases i with
  | message w payload =>
    have hs := (run.handle_outcome rest prompt payload).1
    have ht := (run'.handle_outcome (h.atRest rest) prompt payload).1
    exact hs.trans ((congrArg some (h.verdict payload)).trans ht.symm)
  | wait | stop => rfl

theorem Run.feed_futile (run : State.Run settings (.create size capacity sinkCapacity) acts s)
    (rest : s.AtRest settings) {i : Input} (prompt : i.Prompt)
    (h : (i.sight settings s).isFutile = true) :
    (i.feed settings s).Alike s := by
  cases i with
  | message w payload =>
    obtain ⟨ho, ha⟩ := run.handle_outcome rest prompt payload
    have ho : (Input.sight settings s (.message w payload)).outcome? = _ := ho
    rw [Sight.isFutile, ho, Option.any_some, Bool.not_eq_true'] at h
    exact ha h
  | wait | stop => cases h

/-- Without the messages that come to nothing the same is seen of all the others. -/
theorem Run.story_survivors {acts' : List (World × Move)} {inputs : List Input}
    (run : State.Run settings (.create size capacity sinkCapacity) acts s)
    (run' : State.Run settings (.create size capacity sinkCapacity) acts' t)
    (rest : s.AtRest settings) (h : s.Alike t) (prompt : ∀ i ∈ inputs, i.Prompt) :
    story settings t (survivors settings s inputs) =
      (story settings s inputs).filter (!·.isFutile) := by
  induction inputs generalizing s t acts acts' with
  | nil => rfl
  | cons i inputs ih =>
    obtain ⟨hi, hinputs⟩ := List.forall_mem_cons.1 prompt
    obtain ⟨_, runF, restF⟩ := run.feed rest i
    rw [survivors, story]
    -- If the message comes to nothing, then only the first pipeline goes on, and stays like the second.
    by_cases hf : (i.sight settings s).isFutile = true
    · rw [if_pos hf, List.filter_cons_of_neg (by simpa using hf)]
      exact ih runF run' restF ((run.feed_futile rest hi hf).trans h) hinputs
    · obtain ⟨_, runF', -⟩ := run'.feed (h.atRest rest) i
      have hs : i.sight settings t = i.sight settings s := by
        unfold Input.sight
        rw [h.outcome? run run' rest hi, (h.feed i).delivery]
      rw [if_neg hf, List.filter_cons_of_pos (by simpa using hf), story, hs,
        ih runF runF' restF (h.feed i) hinputs]

end State

/-- A message that comes to nothing leaves nothing behind.

It counts as malformed if and only if it is no event, and then nothing is asked for it. Lookups change
nothing else than what is known of messages, and neither does a submission change deliveries. No job of
a message that was not dispatched is accepted, and nothing is ever done for it. The other messages alone
could have led to the same deliveries. If messages come one after the other and their lookups take no
time, then the others go on as if it had never come. -/
theorem failures_leave_nothing
    (run : State.Run settings (.create size capacity sinkCapacity) acts s) :
    (∀ number w m, (messages acts)[number]? = some (w, m) →
      (s.outcome? number = some .malformed ↔ m.event? = none)) ∧
    (∀ w payload, (s.arrive settings w payload).pool = s.pool ∧
      (s.arrive settings w payload).delivery.clock = s.delivery.clock ∧
      (s.arrive settings w payload).delivery.workers = s.delivery.workers ∧
      ∃ calls, (s.arrive settings w payload).delivery.log =
          (calls.map .called).reverse ++ s.delivery.log ∧
        (∀ c ∈ calls, c.isPreparatory = true) ∧ (Event.decode? payload = none → calls = [])) ∧
    (∀ d, (s.submit d).delivery = s.delivery) ∧
    (∀ number outcome, s.outcome? number = some outcome → outcome.isDispatched = false →
      (∀ o ∈ s.pool.accepted, o.number ≠ number) ∧
      ∀ x ∈ s.delivery.log, ∀ e, x.errand? = some e → e.job ≠ number) ∧
    (∃ others t, State.Run settings (.create size capacity sinkCapacity) others t ∧
      messages others = ((messages acts).zipIdx.filter (!s.isFutile ·.2)).map (·.1) ∧
      t.delivery.plain = s.delivery.plain) ∧
    (s.AtRest settings → (∀ number < s.arrivals, ∃ outcome, s.outcome? number = some outcome) ∧
      ∀ inputs : List Input, (∀ i ∈ inputs, i.Prompt) →
        story settings s (survivors settings s inputs) =
          (story settings s inputs).filter (!·.isFutile)) := by
  have hsubmit (d : Draft) : (s.submit d).delivery = s.delivery := by
    unfold State.submit; split <;> rfl
  obtain ⟨others, t, run', hm, drafts, -, ha⟩ := run.omit run.loses
  exact ⟨fun _ _ _ hm => run.outcome_malformed hm, fun w => s.arrive_keeps settings w, hsubmit,
    fun _ _ ho hd => run.unserved ho hd, ⟨others, t, run', hm, ha.delivery⟩,
    fun rest => ⟨fun _ hn => run.settles rest hn, fun _ hp => run.story_survivors run rest (.refl s) hp⟩⟩

/-- A message that is no event comes to a pipeline before one that is. -/
theorem failures_leave_nothing_garbled : ∃ acts s,
    State.Run plainSettings (.create 1 1 1) acts s ∧ s.AtRest plainSettings ∧
    story plainSettings s [.message plainWorld followMessage] =
      (story plainSettings s [.message plainWorld [], .message plainWorld followMessage]).filter
        (!·.isFutile) := by
  have prompt : plainWorld.Prompt :=
    ⟨fun _ _ => rfl, fun _ => rfl, fun _ _ => rfl, fun _ => rfl, fun _ => rfl⟩
  have created : State.Run plainSettings (.create 1 1 1) [] (.create 1 1 1) := .refl
  obtain ⟨acts, -, run, rest⟩ := created.finish plainWorld
  refine ⟨acts, _, run, rest, ?_⟩
  let s := (State.create 1 1 1).finish plainSettings plainWorld
  have hgarbled : (Input.sight plainSettings s (.message plainWorld [])).isFutile = true := by
    decide +kernel
  have hfollow : (Input.sight plainSettings (s.handle plainSettings plainWorld [])
      (.message plainWorld followMessage)).isFutile = false := by decide +kernel
  have h := ((failures_leave_nothing run).2.2.2.2.2 rest).2
    [.message plainWorld [], .message plainWorld followMessage] (by simp [Input.Prompt, prompt])
  rwa [survivors, if_pos hgarbled, survivors, if_neg (by rw [Input.feed, hfollow]; decide), survivors] at h

end Herald.Pipeline
