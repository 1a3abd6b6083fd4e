import Herald.Broker.Consumer
import Herald.Proofs.Pipeline.Erasure

/-!
# Deliveries are settled once

Each delivery that a consumer has taken is settled or has its task, and never both. How it is settled
depends on its payload alone, and whatever the broker refuses makes no difference to the others. Every
task comes to its end, and tasks may end in any order.

* `Consumer.Step.of_step`: every step is one of the cases.
* `Consumer.Books`: settlements and tasks make up the deliveries; `Books.step` keeps it.
* `Consumer.Run.flawless`: failures make no difference.
* `Consumer.Books.settle_all`: the tasks can come to their ends, in whatever order.
-/

namespace Herald.Broker

open Pipeline (Settings World messages messages_cons)

variable {settings : Settings} {w : World} {c c' : Consumer} {m : Move} {acts : List (World × Move)}
  {size capacity sinkCapacity : Nat}

/-- How a delivery has to be settled. -/
def Delivery.verdict (d : Delivery) : Settlement :=
  if (Event.decode? d.payload).isSome then .acknowledged else .rejected false

/-- The settlement that a delivery asks for. -/
def Delivery.claim (d : Delivery) : Tag × Settlement := (d.tag, d.verdict)

def Request.settlement? : Request → Option (Tag × Settlement)
  | settle tag s => some (tag, s)
  | _ => none

def Move.delivery? : Move → Option Delivery
  | .deliver d => some d
  | _ => none

/-- The deliveries that were taken, in order. -/
def taken (acts : List (World × Move)) : List Delivery := pick (·.2.delivery?) acts

namespace Consumer

/-- The settlements that were asked for, granted or not, in order. -/
def settlements (c : Consumer) : List (Tag × Settlement) := pick (·.1.settlement?) c.requests

/-! ## Steps -/

/-- The ways in which a move can go. -/
inductive Step (settings : Settings) (w : World) (c : Consumer) : Move → Consumer → Prop
  | deliver {d : Delivery} : c.isOpen = true →
    Step settings w c (.deliver d) { c with tasks := c.tasks ++ [⟨d, none⟩] }
  | fail : Step settings w c .fail c
  | begin {position : Nat} {d : Delivery} : c.tasks[position]? = some ⟨d, none⟩ →
    Step settings w c (.begin position) { c with
      pipeline := c.pipeline.arrive settings w d.payload
      tasks := c.tasks.set position ⟨d, some c.pipeline.arrivals⟩ }
  | settle {position : Nat} {granted : Bool} {d : Delivery} {number : Nat} {outcome : Pipeline.Outcome} :
    c.tasks[position]? = some ⟨d, some number⟩ → c.pipeline.outcome? number = some outcome →
    Step settings w c (.settle position granted) { c with
      tasks := c.tasks.eraseIdx position
      requests := (.settle d.tag (settlement outcome), granted) :: c.requests }
  | close : Step settings w c .close { c with isOpen := false }
  | pipeline {m : Pipeline.Move} {p : Pipeline.State} : c.pipeline.step settings w m = some p →
    Step settings w c (.pipeline m) { c with pipeline := p }

theorem Step.of_step (h : c.step settings w m = some c') : Step settings w c m c' := by
  cases m with
  | deliver d =>
    obtain ⟨ho, h⟩ := Option.ite_none_right_eq_some.1 h
    cases h
    exact .deliver ho
  | fail =>
    obtain ⟨-, h⟩ := Option.ite_none_right_eq_some.1 h
    cases h
    exact .fail
  | begin position =>
    simp only [step] at h
    split at h <;> cases h
    exact .begin ‹_›
  | settle position granted =>
    simp only [step] at h
    split at h
    · obtain ⟨outcome, ho, rfl⟩ := Option.map_eq_some_iff.1 h
      exact .settle ‹_› ho
    · cases h
  | close =>
    obtain ⟨-, h⟩ := Option.ite_none_right_eq_some.1 h
    cases h
    exact .close
  | pipeline m =>
    obtain ⟨p, hp, rfl⟩ := Option.map_eq_some_iff.1 h
    exact .pipeline hp

/-- What becomes of a consumer by a move; calls that start then are replied to as the world has it. -/
def act (settings : Settings) (c : Consumer) (a : World × Move) : Option Consumer :=
  c.step settings a.1 a.2

/-- The consumers that moves lead to; the moves are given latest first. -/
def Run (settings : Settings) (c : Consumer) : List (World × Move) → Consumer → Prop :=
  Trace (act settings) c

/-! ## Books -/

/-- The pipeline is one that can come to be, and knows the messages of the tasks that have begun; the
settlements and the tasks make up the deliveries. -/
structure Books (settings : Settings) (size capacity sinkCapacity : Nat) (acts : List (World × Move))
    (c : Consumer) : Prop where
  pipeline : ∃ moves, Pipeline.State.Run settings (.create size capacity sinkCapacity) moves c.pipeline ∧
    ∀ task ∈ c.tasks, ∀ number, task.number? = some number →
      ∃ w, (messages moves)[number]? = some (w, .arrive task.delivery.payload)
  settled : ∃ done : List Delivery, c.settlements = done.map (·.claim) ∧
    (done ++ c.tasks.map (·.delivery)).Perm (taken acts)

/-- A message stays one. -/
theorem getElem?_messages_cons {number : Nat} {a : World × Pipeline.Move}
    {moves : List (World × Pipeline.Move)} (h : (messages moves)[number]? = some a)
    (b : World × Pipeline.Move) : (messages (b :: moves))[number]? = some a := by
  rw [messages_cons, List.getElem?_append_left (List.getElem?_eq_some_iff.1 h).1, h]

/-- What becomes of a message says how its delivery has to be settled. -/
theorem settlement_outcome {moves : List (World × Pipeline.Move)} {p : Pipeline.State}
    (run : Pipeline.State.Run settings (.create size capacity sinkCapacity) moves p) {number : Nat}
    {d : Delivery} (hm : (messages moves)[number]? = some (w, .arrive d.payload))
    {outcome : Pipeline.Outcome} (ho : p.outcome? number = some outcome) :
    settlement outcome = d.verdict := by
  have h := run.outcome_malformed hm
  rw [ho, Option.some.injEq] at h
  have he : Pipeline.Move.event? (.arrive d.payload) = Event.decode? d.payload := rfl
  unfold Delivery.verdict
  cases hd : Event.decode? d.payload with
  | none =>
    rw [h.2 (he.trans hd)]
    rfl
  | some e =>
    have hne : outcome ≠ .malformed := fun hm => by
      rw [he, hd] at h
      cases h.1 hm
    -- All other outcomes are acknowledged alike.
    cases outcome with
    | malformed => exact absurd rfl hne
    | _ => rfl

/-- That a task begins does not change its delivery. -/
theorem map_delivery_set {tasks : List Task} {position : Nat} {d : Delivery}
    {number? number?' : Option Nat} (h : tasks[position]? = some ⟨d, number?⟩) :
    (tasks.set position ⟨d, number?'⟩).map (·.delivery) = tasks.map (·.delivery) := by
  refine List.ext_getElem? fun i => ?_
  rw [List.getElem?_map, List.getElem?_map]
  by_cases hi : position = i
  · subst hi
    obtain ⟨hlt, -⟩ := List.getElem?_eq_some_iff.1 h
    rw [List.getElem?_set_self hlt, h]
    rfl
  · rw [List.getElem?_set_ne hi]

/-- The last message that has come in. -/
theorem getElem?_messages_arrive {moves : List (World × Pipeline.Move)} {p : Pipeline.State}
    (run : Pipeline.State.Run settings (.create size capacity sinkCapacity) moves p)
    (w : World) (payload : List UInt8) :
    (messages ((w, .arrive payload) :: moves))[p.arrivals]? = some (w, .arrive payload) := by
  obtain ⟨_, provenance⟩ := run.provenance
  rw [messages_cons, ← provenance.arrivals]
  exact List.getElem?_concat_length

theorem Books.step (b : Books settings size capacity sinkCapacity acts c) (h : Step settings w c m c') :
    Books settings size capacity sinkCapacity ((w, m) :: acts) c' := by
  obtain ⟨moves, run, known⟩ := b.pipeline
  obtain ⟨done, hdone, hperm⟩ := b.settled
  cases h with
  | @deliver d =>
    refine ⟨⟨moves, run, fun task ht number hn => ?_⟩, ?_⟩
    · rcases List.mem_append.1 ht with ht | ht
      · exact known task ht number hn
      · rw [List.mem_singleton.1 ht] at hn
        cases hn
    · have ht : taken ((w, .deliver d) :: acts) = taken acts ++ [d] := pick_cons ..
      refine ⟨done, hdone, ?_⟩
      rw [ht, List.map_append, ← List.append_assoc]
      exact hperm.append_right _
  | fail => exact ⟨⟨moves, run, known⟩, b.settled⟩
  | @begin position d hd =>
    refine ⟨⟨(w, .arrive d.payload) :: moves, .step _ run rfl, fun task ht number hn => ?_⟩, ?_⟩
    · rcases List.mem_or_eq_of_mem_set ht with ht | rfl
      · obtain ⟨w', hm⟩ := known task ht number hn
        exact ⟨w', getElem?_messages_cons hm _⟩
      · cases hn
        exact ⟨w, getElem?_messages_arrive run w d.payload⟩
    · exact ⟨done, hdone, (map_delivery_set hd).symm ▸ hperm⟩
  | @settle position granted d number outcome hd ho =>
    obtain ⟨w', hm⟩ := known _ (List.mem_of_getElem? hd) number rfl
    refine ⟨⟨moves, run, fun task ht => known task (List.mem_of_mem_eraseIdx ht)⟩, ?_⟩
    refine ⟨done ++ [d], ?_, ?_⟩
    · rw [List.map_append, ← hdone, List.map_singleton, Delivery.claim, ← settlement_outcome run hm ho]
      exact pick_cons ..
    · have htasks : (⟨d, some number⟩ :: c.tasks.eraseIdx position).Perm c.tasks :=
        (perm_eraseIdx hd).symm
      rw [List.append_assoc]
      exact ((htasks.map (·.delivery)).append_left _).trans hperm
  | close => exact ⟨⟨moves, run, known⟩, b.settled⟩
  | @pipeline m p hp =>
    refine ⟨⟨(w, m) :: moves, .step _ run hp, fun task ht number hn => ?_⟩, b.settled⟩
    obtain ⟨w', hm⟩ := known task ht number hn
    exact ⟨w', getElem?_messages_cons hm _⟩

theorem Books.run {acts' : List (World × Move)}
    (b : Books settings size capacity sinkCapacity acts c) (run : Run settings c acts' c') :
    Books settings size capacity sinkCapacity (acts' ++ acts) c' :=
  Trace.keeps (P := fun acts' c' => Books settings size capacity sinkCapacity (acts' ++ acts) c') run b
    fun _ _ _ _ b h => b.step (.of_step h)

/-- If the tags of the deliveries differ, then what is asked for a tag is the settlement of its delivery,
once its task has ended. -/
theorem Books.settlements_of (b : Books settings size capacity sinkCapacity acts c)
    (hn : ((taken acts).map (·.tag)).Nodup) {d : Delivery} (hd : d ∈ taken acts) :
    c.settlements.filter (·.1 = d.tag) =
      if d ∈ c.tasks.map (·.delivery) then [] else [d.claim] := by
  obtain ⟨done, hdone, hperm⟩ := b.settled
  have htags := (hperm.map (·.tag)).nodup_iff.2 hn
  rw [List.map_append] at htags
  obtain ⟨hdn, -, hdisjoint⟩ := List.nodup_append.1 htags
  rw [hdone, List.filter_map]
  split
  · next ht =>
    rw [List.filter_eq_nil_iff.2 fun d' hd' => ?_, List.map_nil]
    simpa [Delivery.claim] using hdisjoint _ (List.mem_map_of_mem hd') _ (List.mem_map_of_mem ht)
  · next ht =>
    have hd : d ∈ done := (List.mem_append.1 (hperm.mem_iff.2 hd)).resolve_right ht
    exact congrArg (List.map _) (filter_key hdn hd)

/-! ## Failures -/

end Consumer

/-- What would be done if nothing failed. -/
def Move.flawless? : Move → Option Move
  | .fail => none
  | .settle position _ => some (.settle position true)
  | m => some m

/-- What would be done if nothing failed. -/
def flawless (acts : List (World × Move)) : List (World × Move) :=
  acts.filterMap fun a => a.2.flawless?.map (a.1, ·)

namespace Consumer

/-- The consumer if everything had been granted. -/
def granted (c : Consumer) : Consumer := { c with requests := c.requests.map fun r => (r.1, true) }

@[simp] theorem settlements_granted (c : Consumer) : c.granted.settlements = c.settlements := by
  simp [settlements, pick, granted, List.filterMap_map]

/-- Whether a delivery cannot be received makes no difference, and neither does it whether a settlement
is granted. -/
theorem step_granted (h : c.step settings w m = some c') : match m.flawless? with
    | none => c' = c
    | some m' => c.granted.step settings w m' = some c'.granted := by
  have hc : c.granted.tasks = c.tasks := rfl
  cases m with
  | fail =>
    obtain ⟨-, h⟩ := Option.ite_none_right_eq_some.1 h
    exact (Option.some.inj h).symm
  | deliver d | close =>
    obtain ⟨ho, h⟩ := Option.ite_none_right_eq_some.1 h
    cases h
    exact if_pos ho
  | begin position =>
    simp only [step] at h
    simp only [Move.flawless?, step, hc]
    split at h <;> cases h
    rfl
  | settle position granted =>
    simp only [step] at h
    simp only [Move.flawless?, step, hc]
    split at h
    · obtain ⟨outcome, ho, rfl⟩ := Option.map_eq_some_iff.1 h
      exact Option.map_eq_some_iff.2 ⟨outcome, ho, rfl⟩
    · cases h
  | pipeline m =>
    obtain ⟨p, hp, rfl⟩ := Option.map_eq_some_iff.1 h
    exact Option.map_eq_some_iff.2 ⟨p, hp, rfl⟩

theorem Run.flawless (run : Run settings c acts c') :
    Run settings c.granted (flawless acts) c'.granted := by
  refine Trace.keeps (P := fun acts c' => Run settings c.granted (Broker.flawless acts) c'.granted)
    run (by exact .refl) ?_
  rintro acts d ⟨w, m⟩ d' ih h
  have hs := step_granted h
  unfold Broker.flawless
  rw [List.filterMap_cons]
  cases hm : m.flawless? with
  | none =>
    rw [hm] at hs
    exact hs ▸ ih
  | some m' =>
    rw [hm] at hs
    exact .step (w, m') ih hs

/-! ## Every task ends -/

end Consumer

/-- Nothing comes in with the move, and the consumer is not told to end. -/
def Move.isInner : Move → Bool
  | .begin _ | .settle _ _ => true
  | .pipeline (.pass _) => true
  | .pipeline m => m.isInner
  | _ => false

namespace Consumer

/-- A consumer goes on with its pipeline. -/
theorem Run.of_pipeline {inner : List (World × Pipeline.Move)} {p : Pipeline.State}
    (run : Pipeline.State.Run settings c.pipeline inner p) :
    Run settings c (inner.map fun a => (a.1, .pipeline a.2)) { c with pipeline := p } := by
  refine Trace.keeps (P := fun inner p => Run settings c
    (inner.map fun a => (a.1, Move.pipeline a.2)) { c with pipeline := p }) run (by exact .refl) ?_
  rintro inner p ⟨w, m⟩ q ih h
  have hstep : act settings { c with pipeline := p } (w, .pipeline m) =
      some { c with pipeline := q } := Option.map_eq_some_iff.2 ⟨q, h, rfl⟩
  exact .step _ ih hstep

/-- A task that has begun can settle its delivery once the pipeline is at rest. -/
theorem Books.settle (b : Books settings size capacity sinkCapacity acts c)
    (rest : c.pipeline.AtRest settings) {position number : Nat} {d : Delivery}
    (h : c.tasks[position]? = some ⟨d, some number⟩) (w : World) (granted : Bool) :
    c.step settings w (.settle position granted) = some { c with
      tasks := c.tasks.eraseIdx position
      requests := (.settle d.tag d.verdict, granted) :: c.requests } := by
  obtain ⟨moves, run, known⟩ := b.pipeline
  obtain ⟨w', hm⟩ := known _ (List.mem_of_getElem? h) number rfl
  obtain ⟨_, provenance⟩ := run.provenance
  obtain ⟨outcome, ho⟩ := run.settles rest
    (provenance.arrivals ▸ (List.getElem?_eq_some_iff.1 hm).1)
  rw [← settlement_outcome run hm ho]
  simp only [Consumer.step, h]
  exact Option.map_eq_some_iff.2 ⟨outcome, ho, rfl⟩

/-- A task that has begun can come to its end, whatever the broker says then. -/
theorem Books.settle_begun (b : Books settings size capacity sinkCapacity acts c) {position number : Nat}
    {d : Delivery} (h : c.tasks[position]? = some ⟨d, some number⟩) (w : World) (granted : Bool) :
    ∃ inner c', (∀ a ∈ inner, a.1 = w ∧ a.2.isInner = true) ∧ Run settings c inner c' ∧
      c'.tasks = c.tasks.eraseIdx position ∧
      c'.requests = (.settle d.tag d.verdict, granted) :: c.requests := by
  obtain ⟨moves, run, -⟩ := b.pipeline
  obtain ⟨inner, hi, hr, rest⟩ := run.finish w
  have hpipeline := Run.of_pipeline hr
  have hsettle := (b.run hpipeline).settle rest h w granted
  refine ⟨(w, .settle position granted) :: _, _, fun a ha => ?_, .step _ hpipeline hsettle, rfl, rfl⟩
  rcases List.mem_cons.1 ha with rfl | ha
  · exact ⟨rfl, rfl⟩
  · obtain ⟨⟨w', m⟩, hm, rfl⟩ := List.mem_map.1 ha
    obtain ⟨rfl, hm | ⟨time, rfl⟩⟩ := hi _ hm
    · refine ⟨rfl, ?_⟩
      cases m <;> first | exact hm | rfl
    · exact ⟨rfl, rfl⟩

/-- Every task can come to its end, whatever the broker says then. -/
theorem Books.settle_one (b : Books settings size capacity sinkCapacity acts c) {d : Delivery}
    (hd : d ∈ c.tasks.map (·.delivery)) (w : World) (granted : Bool) :
    ∃ inner c', (∀ a ∈ inner, a.1 = w ∧ a.2.isInner = true) ∧ Run settings c inner c' ∧
      (d :: c'.tasks.map (·.delivery)).Perm (c.tasks.map (·.delivery)) ∧
      c'.requests = (.settle d.tag d.verdict, granted) :: c.requests := by
  obtain ⟨⟨d, number?⟩, ht, rfl⟩ := List.mem_map.1 hd
  obtain ⟨position, hp, he⟩ := List.mem_iff_getElem.1 ht
  have hperm {c' : Consumer} {tasks : List Task} {number? : Option Nat}
      (htasks : tasks.map (·.delivery) = c.tasks.map (·.delivery))
      (h : tasks[position]? = some ⟨d, number?⟩) (hc' : c'.tasks = tasks.eraseIdx position) :
      (d :: c'.tasks.map (·.delivery)).Perm (c.tasks.map (·.delivery)) := by
    have ht : (⟨d, number?⟩ :: tasks.eraseIdx position).Perm tasks := (perm_eraseIdx h).symm
    rw [hc', ← htasks]
    exact ht.map (·.delivery)
  have h : c.tasks[position]? = some ⟨d, number?⟩ := he ▸ List.getElem?_eq_getElem hp
  cases number? with
  | some number =>
    obtain ⟨inner, c', hi, run, htasks, hreq⟩ := b.settle_begun h w granted
    exact ⟨inner, c', hi, run, hperm rfl h htasks, hreq⟩
  | none =>
    -- The task has to begin first, which leaves it at its position.
    have hbegin : c.act settings (w, .begin position) = some { c with
        pipeline := c.pipeline.arrive settings w d.payload
        tasks := c.tasks.set position ⟨d, some c.pipeline.arrivals⟩ } := by
      simp only [act, Consumer.step, h]
    have hone : Run settings c [(w, .begin position)] _ := .step _ .refl hbegin
    have hset : (c.tasks.set position ⟨d, some c.pipeline.arrivals⟩)[position]? =
        some ⟨d, some c.pipeline.arrivals⟩ := by simp [hp]
    obtain ⟨inner, c', hi, run, htasks, hreq⟩ := (b.run hone).settle_begun hset w granted
    refine ⟨inner ++ [(w, Move.begin position)], c', fun a ha => ?_, hone.trans run,
      hperm (map_delivery_set h) hset htasks, hreq⟩
    rcases List.mem_append.1 ha with ha | ha
    · exact hi a ha
    · exact List.mem_singleton.1 ha ▸ ⟨rfl, rfl⟩

/-- The tasks can come to their ends in whatever order, whatever the broker says then. -/
theorem Books.settle_all (b : Books settings size capacity sinkCapacity acts c) (w : World)
    (granted : Delivery → Bool) {order : List Delivery}
    (h : order.Perm (c.tasks.map (·.delivery))) :
    ∃ inner c', (∀ a ∈ inner, a.1 = w ∧ a.2.isInner = true) ∧ Run settings c inner c' ∧
      c'.tasks = [] ∧ c'.requests =
        (order.map fun d => (.settle d.tag d.verdict, granted d)).reverse ++ c.requests := by
  induction order generalizing c acts with
  | nil =>
    exact ⟨[], c, fun _ h => absurd h List.not_mem_nil, .refl,
      List.map_eq_nil_iff.1 h.symm.eq_nil, rfl⟩
  | cons d order ih =>
    obtain ⟨inner, c₁, hi, run, hperm, hreq⟩ :=
      b.settle_one (h.subset (List.mem_cons_self ..)) w (granted d)
    obtain ⟨inner', c₂, hi', run', htasks, hreq'⟩ :=
      ih (b.run run) ((List.perm_cons d).1 (h.trans hperm.symm))
    refine ⟨inner' ++ inner, c₂, fun a ha => (List.mem_append.1 ha).elim (hi' a) (hi a),
      run.trans run', htasks, ?_⟩
    rw [hreq', hreq]
    simp

/-- If the pipeline is at rest and no task can go on, then there is none. -/
theorem Books.no_tasks (b : Books settings size capacity sinkCapacity acts c)
    (rest : c.pipeline.AtRest settings) (w : World)
    (h : ∀ position, c.step settings w (.begin position) = none ∧
      c.step settings w (.settle position true) = none) : c.tasks = [] := by
  refine List.eq_nil_iff_forall_not_mem.2 fun ⟨d, number?⟩ ht => ?_
  obtain ⟨position, hp⟩ := List.mem_iff_getElem?.1 ht
  obtain ⟨hbegin, hsettle⟩ := h position
  cases number? with
  | none =>
    simp only [Consumer.step, hp] at hbegin
    cases hbegin
  | some number =>
    rw [b.settle rest hp w true] at hsettle
    cases hsettle

/-- Each delivery is settled once, as its payload asks for.

Settlements and tasks make up the deliveries that were taken, so that a delivery whose task has ended was
settled once, and no other one was. Nothing depends on whether deliveries cannot be received or
settlements are refused. At every moment the tasks can go on to their ends, and end in any order; only
when all have ended can none go on. -/
theorem settled_once {queue : String} {reply : Bool} {p : Pipeline.State} {before : List (World × Pipeline.Move)}
    {c₀ : Consumer} (reach : Pipeline.State.Run settings (.create size capacity sinkCapacity) before p)
    (hs : start queue reply p = .ok c₀) (run : Run settings c₀ acts c) :
    (∃ done : List Delivery, c.settlements = done.map (·.claim) ∧
      (done ++ c.tasks.map (·.delivery)).Perm (taken acts)) ∧
    (((taken acts).map (·.tag)).Nodup → ∀ d ∈ taken acts, c.settlements.filter (·.1 = d.tag) =
      if d ∈ c.tasks.map (·.delivery) then [] else [d.claim]) ∧
    Run settings c₀ (flawless acts) c.granted ∧
    (∀ w (granted : Delivery → Bool) (order : List Delivery),
      order.Perm (c.tasks.map (·.delivery)) →
      ∃ inner c', (∀ a ∈ inner, a.1 = w ∧ a.2.isInner = true) ∧ Run settings c inner c' ∧
        c'.tasks = [] ∧ c'.requests =
          (order.map fun d => (.settle d.tag d.verdict, granted d)).reverse ++ c.requests) ∧
    (c.pipeline.AtRest settings → ∀ w, (∀ position, c.step settings w (.begin position) = none ∧
      c.step settings w (.settle position true) = none) → c.tasks = []) := by
  cases reply with
  | false => cases hs
  | true =>
  cases hs
  have b₀ : Books settings size capacity sinkCapacity []
      { pipeline := p, requests := [(.consume queue, true)] } :=
    ⟨⟨before, reach, fun _ h => absurd h List.not_mem_nil⟩, [], rfl, .refl _⟩
  have b := b₀.run run
  rw [List.append_nil] at b
  exact ⟨b.settled, fun hn _ hd => b.settlements_of hn hd, run.flawless,
    fun w granted _ h => b.settle_all w granted h, fun rest w h => b.no_tasks rest w h⟩

open Pipeline (plainSettings plainWorld followMessage)

/-- A message that is no event, and one that is; the first is rejected, which the broker refuses. -/
def garbledFirst : List (World × Move) :=
  [.settle 0 false, .begin 0, .deliver ⟨2, followMessage⟩, .fail, .deliver ⟨1, []⟩].map (plainWorld, ·)

theorem settled_once_garbledFirst :
    ∃ c₀ c, start "events" true (.create 1 1 1) = .ok c₀ ∧ Run plainSettings c₀ garbledFirst c ∧
      c.settlements = [(1, .rejected false)] ∧ c.tasks = [⟨⟨2, followMessage⟩, none⟩] ∧
      ∃ inner c', Run plainSettings c inner c' ∧ c'.tasks = [] ∧
        c'.settlements = [(1, .rejected false), (2, .acknowledged)] := by
  obtain ⟨c, hc⟩ : ∃ c, play (act plainSettings)
      { pipeline := .create 1 1 1, requests := [(.consume "events", true)] } garbledFirst = some c :=
    ⟨_, rfl⟩
  have run := trace_iff.2 hc
  have created : Pipeline.State.Run plainSettings (.create 1 1 1) [] (.create 1 1 1) := .refl
  have started : start "events" true (.create 1 1 1) =
    .ok { pipeline := .create 1 1 1, requests := [(.consume "events", true)] } := rfl
  obtain ⟨-, -, -, hall, -⟩ := settled_once created started run
  have hsettlements : c.settlements = [(1, .rejected false)] := by cases hc; rfl
  have htasks : c.tasks = [⟨⟨2, followMessage⟩, none⟩] := by cases hc; rfl
  obtain ⟨inner, c', -, run', htasks', hreq⟩ :=
    hall plainWorld (fun _ => true) [⟨2, followMessage⟩] (htasks ▸ .refl _)
  refine ⟨_, c, started, run, hsettlements, htasks, inner, c', run', htasks', ?_⟩
  have hverdict : Delivery.verdict ⟨2, followMessage⟩ = .acknowledged := by decide +kernel
  have hc' : c'.settlements = c.settlements ++ [(2, Delivery.verdict ⟨2, followMessage⟩)] := by
    unfold settlements
    rw [hreq]
    exact pick_cons ..
  rw [hc', hsettlements, hverdict]
  rfl

end Consumer

end Herald.Broker
