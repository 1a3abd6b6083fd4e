import Herald.Proofs.Delivery.Attempts
import Herald.Proofs.Pipeline.Rest
import Herald.Proofs.Pipeline.Secrecy

/-!
# Jobs are dispatched

A pool that was not told to end keeps its intake open, as long as it has workers whose handlers do not
break down. So whatever job has been prepared from a message comes in, sooner or later.

* `State.Run.isOpen`: the intake is open until somebody stops the pool.
* `State.Run.dispatches`: what becomes of a message from which a job was prepared.
* `State.Run.bypasses`: errands without a cooldown that are not kept pass by the cache.
-/

namespace Herald

/-! ## Refusals -/

namespace Pool

variable {J : Type} {s t : State J} {m : Move J} {moves : List (Move J)} {size capacity : Nat}

/-- A pool ends when it is told to. -/
theorem Step.shutdown (h : Step s m t) (hs : m ≠ .stop) (ha : m ≠ .abandon) :
    t.shutdown = s.shutdown := by
  cases h with
  | stop => exact absurd rfl hs
  | abandon => exact absurd rfl ha
  | _ => rfl

/-- An open intake has refused nothing. -/
theorem Step.unrefused (h : Step s m t) (hs : s.intake.isClosed = false → s.refused = []) :
    t.intake.isClosed = false → t.refused = [] := by
  have hnote {happening : Happening J} {intake : Channel J}
      (hr : Happening.refused? happening = none) (hc : intake.isClosed = s.intake.isClosed)
      (ho : intake.isClosed = false) : pick Happening.refused? (happening :: s.log) = [] := by
    rw [pick_cons, hr]
    exact (List.append_nil _).trans (hs (hc ▸ ho))
  intro ho
  cases h with
  | accept e => exact hnote rfl (Channel.send?_keeps e).2.1 ho
  | park e => exact hs ((Channel.send?_keeps e).2.1 ▸ ho)
  | refuse hc => rw [State.intake_note, hc] at ho; cases ho
  | enter e => exact hnote rfl (Channel.enter?_keeps e).2.1 ho
  | start | find | finish | crash | drop | hand => exact hnote rfl rfl ho
  | receive _ e => exact hs ((Channel.receive?_keeps e).2 ▸ ho)
  | drain _ e => exact hnote rfl (Channel.receive?_keeps e).2 ho
  | close => cases ho
  | _ => exact hs ho

theorem State.Run.unrefused (run : Run (.create size capacity) moves s) :
    s.intake.isClosed = false → s.refused = [] :=
  run.keeps (P := fun _ s => s.intake.isClosed = false → s.refused = []) (fun _ => rfl)
    fun _ _ _ _ hs h => h.unrefused hs

end Pool

namespace Pipeline

open Pool (submissions)

variable {settings : Settings} {w : World} {s t : State} {m : Move} {acts inner : List (World × Move)}
  {size capacity sinkCapacity number : Nat} {e : Event} {job : Delivery.Job}

/-! ## The intake -/

/-- Nobody stops the pool. -/
theorem Step.shutdown (h : Step settings w s m t) (hm : m ≠ .stop) :
    t.pool.shutdown = s.pool.shutdown := by
  cases h with
  | stop => exact absurd rfl hm
  | submit =>
    unfold State.submit
    split
    · rfl
    · next d _ _ _ job _ =>
      have hp : s.pool.step (.submit ⟨d.number, job⟩) = some (s.pool.submit ⟨d.number, job⟩) := rfl
      exact (Pool.Step.of_step hp).shutdown nofun nofun
  | pool ho hp | begin ho hp =>
    exact (Pool.Step.of_step hp).shutdown (by rintro rfl; cases ho) (by rintro rfl; cases ho)
  | finish _ _ hp => exact (Pool.Step.of_step hp).shutdown nofun nofun
  | enter | malformed | deliver | pass => rfl

namespace State.Run

/-- A pool is told to end by nobody while its pipeline is let go on. -/
theorem shutdown {s : State} (run : State.Run settings s inner t) (h : ∀ a ∈ inner, Within w a) :
    t.pool.shutdown = s.pool.shutdown := by
  refine Trace.keeps (P := fun inner t => (∀ a ∈ inner, Within w a) → t.pool.shutdown = s.pool.shutdown)
    run (fun _ => rfl) ?_ h
  rintro inner t ⟨v, m⟩ u ih hstep h
  have hm : m ≠ .stop := by
    rintro rfl
    obtain ⟨-, h | ⟨_, h⟩⟩ := h _ (List.mem_cons_self ..) <;> cases h
  exact (Step.shutdown (.of_step hstep) hm).trans (ih fun a ha => h a (List.mem_cons_of_mem _ ha))

/-- The intake is open until somebody stops the pool. -/
theorem isOpen (run : State.Run settings (.create size capacity sinkCapacity) acts s) (hs : 0 < size)
    (hn : s.pool.shutdown = .none) : s.pool.intake.isClosed = false := by
  obtain ⟨moves, p⟩ := run.provenance
  obtain ⟨phase, hp⟩ := List.exists_mem_of_length_pos (p.pool.sized.workers ▸ hs)
  -- Unless it is told to, the dispatcher gives up only if all handlers have broken down.
  have hg : s.pool.dispatcher.hasGivenUp = false := Bool.eq_false_iff.2 fun hg => by
    have hc := p.pool.alive.wrecked hn hg phase hp
    rw [run.not_crashed phase hp] at hc
    cases hc
  rw [p.pool.gate.closed]
  cases hd : s.pool.dispatcher with
  | closing | draining | ended => rw [hd] at hg; cases hg
  | _ => rfl

/-- A message from which a job was prepared comes to nothing else than that job, as long as nobody stops
the pool; and at rest it has been dispatched. -/
theorem dispatched_at_rest (run : State.Run settings (.create size capacity sinkCapacity) acts s)
    (hs : 0 < size) (hn : s.pool.shutdown = .none) (hm : (messages acts)[number]? = some (w, m))
    (he : m.event? = some e) (hj : (prepare settings w e).value = .ok job) :
    (∀ outcome, s.outcome? number = some outcome → outcome = .dispatched job.targets.length) ∧
    (∀ o ∈ s.pool.accepted, o.number = number → o = ⟨number, job⟩) ∧
    (s.AtRest settings → s.outcome? number = some (.dispatched job.targets.length) ∧
      s.pool.accepted.filter (·.number = number) = [⟨number, job⟩]) := by
  obtain ⟨moves, p⟩ := run.provenance
  have horder : ∀ o ∈ submissions moves, o.number = number → o = ⟨number, job⟩ := by
    rintro ⟨_, job'⟩ ho rfl
    have hresult := (p.orders _ ho).eq hm he
    rw [hj] at hresult
    cases hresult
    rfl
  have haccepted : ∀ o ∈ s.pool.accepted, o.number = number → o = ⟨number, job⟩ := fun o ho =>
    horder o (p.pool.ledger.submitted.mem_iff.2 (by simp [ho]))
  have hout : ∀ outcome, s.outcome? number = some outcome →
      outcome = .dispatched job.targets.length ∧ ⟨number, job⟩ ∈ s.pool.accepted := by
    intro outcome ho
    rcases State.outcome_cases ho with hf | ⟨o, hmem, hn, rfl⟩ | ⟨o, hmem, -⟩
    · rcases run.explained _ hf with h | ⟨-, w', m', hm', he'⟩
      · have hresult := h.eq hm he
        rw [hj] at hresult
        cases hresult
      · cases hm.symm.trans hm'
        rw [he] at he'
        cases he'
    · obtain rfl := haccepted o hmem hn
      exact ⟨rfl, hmem⟩
    · rw [p.pool.unrefused (run.isOpen hs hn)] at hmem
      cases hmem
  refine ⟨fun outcome ho => (hout outcome ho).1, haccepted, fun rest => ?_⟩
  obtain ⟨outcome, ho⟩ := run.settles rest (p.arrivals ▸ (List.getElem?_eq_some_iff.1 hm).1)
  obtain ⟨rfl, hin⟩ := hout outcome ho
  exact ⟨ho, filter_key (List.nodup_append.1 p.nodup_accepted).1 hin⟩

end State.Run

/-- A message comes to nothing else than a job, and it comes to that once the pipeline is let go on. -/
structure Dispatches (settings : Settings) (s : State) (number : Nat) (job : Delivery.Job) : Prop where
  outcome : ∀ outcome, s.outcome? number = some outcome → outcome = .dispatched job.targets.length
  orders : ∀ o ∈ s.pool.accepted, o.number = number → o = ⟨number, job⟩
  finally_outcome : ∀ w, (s.finish settings w).outcome? number = some (.dispatched job.targets.length)
  finally_orders : ∀ w, (s.finish settings w).pool.accepted.filter (·.number = number) =
    [⟨number, job⟩]

/-- A message from which a job was prepared comes to that job, unless somebody stops the pool. -/
theorem State.Run.dispatches (run : State.Run settings (.create size capacity sinkCapacity) acts s)
    (hs : 0 < size) (hn : s.pool.shutdown = .none) (hm : (messages acts)[number]? = some (w, m))
    (he : m.event? = some e) (hj : (prepare settings w e).value = .ok job) :
    Dispatches settings s number job := by
  have hfin (v : World) :
      (s.finish settings v).outcome? number = some (.dispatched job.targets.length) ∧
        (s.finish settings v).pool.accepted.filter (·.number = number) = [⟨number, job⟩] := by
    obtain ⟨inner, hi, hrun, rest⟩ := run.finish v
    have run' : State.Run settings (.create size capacity sinkCapacity) (inner ++ acts) _ :=
      run.trans hrun
    exact (run'.dispatched_at_rest hs ((hrun.shutdown hi).trans hn)
      ((messages_within hi).symm ▸ hm) he hj).2.2 rest
  obtain ⟨ho, hacc, -⟩ := run.dispatched_at_rest hs hn hm he hj
  exact ⟨ho, hacc, fun v => (hfin v).1, fun v => (hfin v).2⟩

end Pipeline

/-! ## Past the cache -/

/-- At this stage nothing is asked of the cache, and nothing is written to it. -/
def Delivery.Stage.isDirect : Delivery.Stage → Bool
  | .fresh | .lookingUp _ | .sending _ => true
  | _ => false

namespace Pipeline

variable {settings : Settings} {s : State} {acts : List (World × Move)}
  {size capacity sinkCapacity : Nat}

/-- The errands of a message pass by the cache: it is not asked about cooldowns, and nothing is written to
it. -/
structure Bypasses (s : State) (number : Nat) : Prop where
  unchecked : ∀ e marked, .checked e marked ∈ s.delivery.log → e.job ≠ number
  direct : ∀ f ∈ s.delivery.flights, f.errand.job = number → f.stage.isDirect = true

/-- If the errands of a message have no cooldown and their notification is not kept, then they pass by
the cache. -/
theorem State.Run.bypasses (run : State.Run settings (.create size capacity sinkCapacity) acts s)
    {number : Nat} (h : ∀ o ∈ s.pool.accepted, o.number = number → ∀ e ∈ o.job.errands o.number,
      e.window? settings.delivery.cooldowns = none ∧ e.notification.category.isStorable = false) :
    Bypasses s number := by
  obtain ⟨moves, p⟩ := run.provenance
  have d := run.deliveries
  have v : Delivery.Writes settings.delivery (fun _ => True) _ _ _ _ _ :=
    run.writes (fun _ _ _ _ _ _ => trivial) fun _ => trivial
  have hfree {e : Delivery.Errand} (he : e ∈ Delivery.errandsOf (jobsOf s.pool.started))
      (hn : e.job = number) : e.window? settings.delivery.cooldowns = none ∧
        e.notification.category.isStorable = false := by
    obtain ⟨o, ho, he⟩ := p.order_of_errand he
    exact h o ho ((Delivery.Job.mem_errands.1 he).1.symm.trans hn) e he
  constructor
  · intro e marked hc hn
    have he := d.books.known _ hc e rfl
    have hm := Delivery.mem_verdicts hc
    rw [(d.books.sound he).verdicts (hfree he hn).1] at hm
    cases hm
  · intro f hf hn
    obtain ⟨he, ho⟩ := v.flights f hf
    obtain ⟨hw, hk⟩ := hfree he hn
    cases hs : f.stage with
    | checking | recording => rw [hs] at ho; exact nomatch hw.symm.trans ho
    | storing =>
      rw [hs] at ho
      rw [ho.2] at hk
      cases hk
    | _ => rfl

end Pipeline

end Herald
