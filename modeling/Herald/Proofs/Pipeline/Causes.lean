import Herald.Proofs.Audience
import Herald.Proofs.Delivery.Attempts
import Herald.Proofs.Pipeline.Provenance
import Herald.Proofs.Pool.Backpressure

/-!
# Every message has a cause

A message goes to a device because of one event that came in earlier: its job was built from the
event and dispatched, the recipient is one of those worked out for the event, no cooldown was known,
and the device is in the answer to the lookup made for that recipient. No two messages have the same
cause.

* `Deliveries`: the delivery workers serve the jobs that the pool has started, each once.
* `sent_has_cause`: the cause of every message that is sent.
-/

namespace Herald.Pipeline

open Delivery (Errand Books Record Allowed Answers Happening errandsOf)

variable {settings : Settings} {worlds : Delivery.World → Prop} {w : World} {s t : State} {m : Move}
  {acts : List (World × Move)} {moves : List (Pool.Move Order)} {size capacity sinkCapacity : Nat}

/-! ## Started jobs -/

/-- Jobs that workers of the pool have started, with the numbers of their messages. -/
def jobsOf (started : List (Nat × Order)) : List (Nat × Delivery.Job) :=
  started.map fun p => (p.2.number, p.2.job)

/-- An errand that a worker was given is one of a job that was accepted. -/
theorem Provenance.order_of_errand {moves : List (Pool.Move Order)}
    (p : Provenance settings size capacity acts moves s) {e : Errand}
    (h : e ∈ errandsOf (jobsOf s.pool.started)) : ∃ o ∈ s.pool.accepted, e ∈ o.job.errands o.number := by
  obtain ⟨q, hq, he⟩ := List.mem_flatMap.1 h
  obtain ⟨⟨i, o⟩, ho, rfl⟩ := List.mem_map.1 hq
  exact ⟨o, p.accepted_of_started ho, he⟩

/-- Most moves of a pool start no job. -/
theorem started_eq {pool pool' : Pool.State Order} {m : Pool.Move Order}
    (hp : pool.step m = some pool') (hm : m.starter? = none) : pool'.started = pool.started := by
  rcases (Pool.Step.of_step hp).started with ⟨i, job, hi, -⟩ | ⟨-, h⟩
  · rw [hm] at hi; cases hi
  · exact h

theorem errandsOf_started {started started' : List (Nat × Order)} {worker : Nat} {order : Order}
    (h : started' = started ++ [(worker, order)]) : errandsOf (jobsOf started') =
      errandsOf (jobsOf started) ++ order.job.errands order.number := by
  simp [h, jobsOf]

/-- What a move of a pipeline makes of the jobs that have started and of their deliveries. -/
inductive Served (settings : Settings) (w : World) (s : State) : Move → State → Prop
  /-- Nothing, but for the calls of a preparation. -/
  | calls {m : Move} {t : State} (calls : List Call) : (∀ worker d, m ≠ .deliver worker d) →
    t.pool.started = s.pool.started →
    t.delivery = { s.delivery with log := (calls.map .called).reverse ++ s.delivery.log } →
    (∀ c ∈ calls, ∃ e, m.event? = some e ∧ c ∈ (prepare settings w e).calls) → Served settings w s m t
  | begin {m : Move} {t : State} {worker : Nat} {order : Order} : (∀ worker d, m ≠ .deliver worker d) →
    t.pool.started = s.pool.started ++ [(worker, order)] → worker < s.pool.workers.length →
    t.delivery = s.delivery.assign worker order.job order.number → Served settings w s m t
  | deliver {worker : Nat} {m : Delivery.Move} {t : State} :
    s.delivery.step settings.delivery w.delivery worker m = some t.delivery →
    t.pool.started = s.pool.started → Served settings w s (.deliver worker m) t
  | pass {time : Nat} {t : State} : t.pool.started = s.pool.started →
    t.delivery = s.delivery.pass time → Served settings w s (.pass time) t

/-- Nothing becomes of deliveries. -/
theorem Served.idle (hm : ∀ worker d, m ≠ .deliver worker d) (hs : t.pool.started = s.pool.started)
    (hd : t.delivery = s.delivery) : Served settings w s m t :=
  .calls [] hm hs hd nofun

theorem Step.served (h : Step settings w s m t) : Served settings w s m t := by
  cases h with
  | @enter m e he =>
    refine .calls _ ?_ rfl rfl fun c hc => ⟨e, he, hc⟩
    rintro worker d rfl
    cases he
  | malformed => exact .idle nofun rfl rfl
  | @submit position draft hd hdue =>
    refine .idle nofun ?_ ?_ <;> unfold State.submit <;> split
    · rfl
    · next job hr => exact started_eq (m := .submit ⟨draft.number, job⟩) rfl rfl
    · rfl
    · rfl
  | stop hp => exact .idle nofun (started_eq hp rfl) rfl
  | pool ho hp hst => exact .idle nofun hst rfl
  | begin ho hp hst hlt => exact .begin nofun hst hlt rfl
  | finish hk hb hp => exact .idle nofun (started_eq hp rfl) rfl
  | deliver hd => exact .deliver hd rfl
  | pass => exact .pass rfl rfl

/-- The delivery workers serve the jobs that the pool has started, each once. -/
structure Deliveries (settings : Settings) (worlds : Delivery.World → Prop) (size : Nat)
    (s : State) : Prop where
  workers : s.delivery.workers.length = size
  books : Books settings.delivery worlds (errandsOf (jobsOf s.pool.started)) s.delivery.waiting
    s.delivery.flights s.delivery.log

namespace Deliveries

theorem waiting_create : (State.create size capacity sinkCapacity).delivery.waiting = [] :=
  List.flatMap_eq_nil_iff.2 fun k hk => by rw [List.eq_of_mem_replicate hk]

theorem flights_create : (State.create size capacity sinkCapacity).delivery.flights = [] :=
  List.flatMap_eq_nil_iff.2 fun k hk => by rw [List.eq_of_mem_replicate hk]

theorem create : Deliveries settings worlds size (State.create size capacity sinkCapacity) := by
  refine ⟨List.length_replicate, ?_⟩
  rw [waiting_create, flights_create]
  exact .nil fun _ h => absurd h List.not_mem_nil

/-- The calls of a preparation are in no record. -/
theorem books_calls {assigned waiting : List Errand} {flights : List Delivery.Flight}
    {log : List Happening} (b : Books settings.delivery worlds assigned waiting flights log)
    (calls : List Call) :
    Books settings.delivery worlds assigned waiting flights
      ((calls.map .called).reverse ++ log) := by
  induction calls generalizing log with
  | nil => exact b
  | cons c calls ih =>
    rw [List.map_cons, List.reverse_cons, List.append_assoc]
    exact ih (b.call c)

theorem step (d : Deliveries settings worlds size s) (h : Step settings w s m t)
    (hs : s.pool.workers.length = size) (hn : (t.pool.started.map (·.2.number)).Nodup)
    (hw : worlds w.delivery) : Deliveries settings worlds size t := by
  have hn : ((errandsOf (jobsOf t.pool.started)).map (·.key)).Nodup :=
    Delivery.nodup_keys (by rw [jobsOf, List.map_map]; exact hn)
  cases h.served with
  | calls _ _ hst hd =>
    refine ⟨by rw [hd]; exact d.workers, ?_⟩
    rw [hst, hd]
    exact books_calls d.books _
  | begin _ hst hlt hd =>
    refine ⟨by rw [hd]; simp [Delivery.State.assign, d.workers], ?_⟩
    rw [errandsOf_started hst] at hn ⊢
    rw [hd]
    exact d.books.assign_state hn (by rw [d.workers, ← hs]; exact hlt)
  | deliver hd hst =>
    rw [hst] at hn
    refine ⟨?_, by rw [hst]; exact d.books.move hn hw hd⟩
    obtain ⟨k, r, -, -, ht⟩ := Delivery.State.step_cases hd
    rw [ht]
    simp [d.workers]
  | pass hst hd =>
    refine ⟨by rw [hd]; exact d.workers, ?_⟩
    rw [hst, hd]
    exact d.books

end Deliveries

/-- What holds along a run of a pipeline. -/
theorem State.Run.invariants (worlds : Delivery.World → Prop)
    (run : State.Run settings (State.create size capacity sinkCapacity) acts s)
    (hw : ∀ a ∈ acts, worlds a.1.delivery) :
    (∃ moves, Provenance settings size capacity acts moves s) ∧
      Deliveries settings worlds size s := by
  refine Trace.keeps (P := fun acts s => (∀ a ∈ acts, worlds a.1.delivery) →
    (∃ moves, Provenance settings size capacity acts moves s) ∧ Deliveries settings worlds size s)
    run (fun _ => ⟨⟨[], .create _⟩, .create⟩) ?_ hw
  intro acts s a t ih e hw
  obtain ⟨⟨moves, p⟩, d⟩ := ih fun a ha => hw a (List.mem_cons_of_mem _ ha)
  have hstep : Step settings a.1 s a.2 t := .of_step e
  obtain ⟨moves', p'⟩ := p.step hstep
  exact ⟨⟨moves', p'⟩, d.step hstep p.pool.sized.workers p'.nodup_started
    (hw a (List.mem_cons_self ..))⟩

/-- Along a run of a pipeline each job is that of its message. -/
theorem State.Run.provenance (run : State.Run settings (State.create size capacity sinkCapacity) acts s) :
    ∃ moves, Provenance settings size capacity acts moves s :=
  (State.Run.invariants (fun _ => True) run fun _ _ => trivial).1

/-- Along a run of a pipeline the deliveries are those of the jobs that have started. -/
theorem State.Run.deliveries (run : State.Run settings (State.create size capacity sinkCapacity) acts s) :
    Deliveries settings (fun _ => True) size s :=
  (State.Run.invariants (fun _ => True) run fun _ _ => trivial).2

/-! ## Causes -/

/-- Why a message went to a device: the event and the lookups that called for it. -/
structure Cause (settings : Settings) (acts : List (World × Move)) (s : State) (errand : Errand)
    (index : Nat) (token : DeviceToken) where
  world : World
  message : Move
  event : Event
  targets : List Recipient
  tokens : List DeviceToken
  /-- The message with the number of the job came into this world. -/
  came : (messages acts)[errand.job]? = some (world, message)
  decoded : message.event? = some event
  visible : event.isPrivate = false
  dispatched : s.outcome? errand.job = some (.dispatched targets.length)
  built : ((Registry.standard world.directories settings.delivery.limit).build event).run.value =
    .ok errand.notification
  resolved : ((resolver settings world).resolve event).run.value = .ok targets
  target : targets[errand.position]? = some errand.recipient
  concerned : (resolver settings world).Concerns errand.recipient event
  wanted : event.isWanted errand.recipient = true
  /-- The cache was not asked, or it did not report a cooldown. -/
  allowed : Allowed settings.delivery errand (Record.of errand.key s.delivery.log).verdicts
  found : (Record.of errand.key s.delivery.log).answers = [.ok tokens]
  replied : Answers settings.delivery (fun v => ∃ a ∈ acts, a.1.delivery = v) errand (.ok tokens)
  listed : tokens[index]? = some token

/-- What a job was prepared from. -/
theorem prepare_ok {e : Event} {job : Delivery.Job} (h : (prepare settings w e).value = .ok job) :
    ((Registry.standard w.directories settings.delivery.limit).build e).run.value =
      .ok job.notification ∧
    ((resolver settings w).resolve e).run.value = .ok job.targets := by
  have hv : (prepare settings w e).value = jobOf
      ((Registry.standard w.directories settings.delivery.limit).build e).run.value
      ((resolver settings w).resolve e).run.value := rfl
  rw [hv] at h
  unfold jobOf at h
  split at h
  · cases h
  · cases h
  · next hb hr =>
    split at h <;> cases h
    exact ⟨hb, hr⟩

theorem mem_attempts {log : List Happening} {e : Errand} {index : Nat} {token : DeviceToken}
    (h : .sent e index token ∈ log) : (token, index) ∈ (Record.of e.key log).attempts := by
  refine mem_pick.2 ⟨_, h, ?_⟩
  simp [Delivery.Happening.about, Delivery.Happening.errand?, Delivery.Happening.target?]

theorem cause_of_sent (p : Provenance settings size capacity acts moves s)
    (d : Deliveries settings (fun v => ∃ a ∈ acts, a.1.delivery = v) size s) {e : Errand}
    {index : Nat} {token : DeviceToken} (h : .sent e index token ∈ s.delivery.log) :
    Nonempty (Cause settings acts s e index token) := by
  have hknown := d.books.known _ h e rfl
  obtain ⟨order, hacc, he⟩ := p.order_of_errand hknown
  obtain ⟨hjob, hnot, htarget⟩ := Delivery.Job.mem_errands.1 he
  obtain ⟨w, m, event, hm, hev, hprep⟩ := p.origin_of_accepted hacc
  obtain ⟨hbuilt, hresolved⟩ := prepare_ok hprep
  obtain ⟨hconcerned, hwanted⟩ := Resolver.mem_resolve hresolved (List.mem_of_getElem? htarget)
  have hs := d.books.sound hknown
  have ha := mem_attempts h
  rw [hs.attempts] at ha
  rcases hs.answers with hn | ⟨answer, hans, hallowed, hreply⟩
  · rw [hn] at ha; cases ha
  · cases answer with
    | error cause => rw [hans] at ha; cases ha
    | ok tokens =>
      rw [hans] at ha
      exact ⟨{
        world := w, message := m, event, targets := order.job.targets, tokens
        came := hjob ▸ hm
        decoded := hev
        visible := Registry.not_private_of_build hbuilt
        dispatched := hjob ▸ p.outcome_of_accepted hacc
        built := hnot ▸ hbuilt
        resolved := hresolved
        target := htarget
        concerned := hconcerned
        wanted := hwanted
        allowed := hallowed
        found := hans
        replied := hreply
        listed := List.mem_zipIdx_iff_getElem?.1 ha }⟩

/-! ## No cause twice -/

/-- Which errand led to a message, with the position of the device in the answer to its lookup. -/
def causeOf? : Happening → Option ((Nat × Nat) × Nat)
  | .sent e index _ => some (e.key, index)
  | _ => none

/-- Pairs do not repeat if for each first component the second ones do not. -/
theorem nodup_of_fibres {κ ι : Type} [DecidableEq κ] {l : List (κ × ι)}
    (h : ∀ k, (l.filterMap fun p => if p.1 = k then some p.2 else none).Nodup) : l.Nodup := by
  induction l with
  | nil => exact .nil
  | cons p l ih =>
    refine List.nodup_cons.2 ⟨?_, ih ?_⟩
    · intro hp
      have hk := h p.1
      simp only [List.filterMap_cons, if_true] at hk
      exact (List.nodup_cons.1 hk).1 (List.mem_filterMap.2 ⟨p, hp, if_pos rfl⟩)
    · intro k
      have hk := h k
      by_cases hp : p.1 = k
      · simp only [List.filterMap_cons, hp, if_true] at hk
        exact (List.nodup_cons.1 hk).2
      · simpa only [List.filterMap_cons, hp, if_false] using hk

/-- The messages of one errand are those in its record. -/
theorem fibre_causes (key : Nat × Nat) (log : List Happening) :
    ((pick causeOf? log).filterMap fun p => if p.1 = key then some p.2 else none) =
      (Record.of key log).attempts.map (·.2) := by
  simp only [Record.of, pick, List.filterMap_reverse, List.filterMap_filterMap, List.map_reverse,
    List.map_filterMap]
  refine congrArg List.reverse (List.filterMap_congr ?_)
  intro h _
  cases h with
  | sent e index token =>
    by_cases hk : e.key = key <;>
      simp [causeOf?, Delivery.Happening.about, Delivery.Happening.errand?,
        Delivery.Happening.target?, hk]
  | _ => simp [causeOf?, Delivery.Happening.about, Delivery.Happening.target?]

theorem nodup_causes (d : Deliveries settings worlds size s) :
    (pick causeOf? s.delivery.log).Nodup := by
  refine nodup_of_fibres ?_
  intro key
  rw [fibre_causes]
  by_cases hk : ∃ h ∈ s.delivery.log, ∃ e, h.errand? = some e ∧ e.key = key
  · obtain ⟨h, hh, e, he, rfl⟩ := hk
    have hs := (d.books.sound (d.books.known h hh e he)).attempts
    rw [hs]
    unfold Delivery.listed
    split
    · rw [List.zipIdx_map_snd]
      exact List.nodup_range'
    · exact .nil
  · rw [Record.of_others fun h hh e he hek => hk ⟨h, hh, e, he, hek⟩]
    exact .nil

/-- Every message to a device has a cause, and no two have the same one.

This holds at every moment, so that what a message is sent for has come in before. -/
theorem sent_has_cause
    (run : State.Run settings (State.create size capacity sinkCapacity) acts s) :
    (∀ errand index token, .sent errand index token ∈ s.delivery.log →
      Nonempty (Cause settings acts s errand index token)) ∧
    (pick causeOf? s.delivery.log).Nodup := by
  obtain ⟨⟨moves, p⟩, d⟩ := run.invariants (fun v => ∃ a ∈ acts, a.1.delivery = v)
    fun a ha => ⟨a, ha, rfl⟩
  exact ⟨fun errand index token h => cause_of_sent p d h, nodup_causes d⟩

/-- Users have one device each and default preferences. -/
def plainWorld : World where
  directories := ⟨fun _ _ => .now (some "one"), fun _ => .now none⟩
  audience := ⟨fun _ _ => ⟨0, .error .notFound⟩, fun _ => .now [], fun _ => .now []⟩
  delivery := ⟨fun _ => .now ["a"], fun _ _ => ⟨3, .ok ()⟩, .now (), .now (), 0⟩

def plainSettings : Settings := ⟨⟨⟨0, 0⟩, .ofMillis 10, 1, 5⟩, [], 0⟩

/-- The message that user 1 follows user 2. -/
def followMessage : List UInt8 :=
  Utf8.encode "\x7b\"type\":\"new_follower\",\"params\":\x7b\"follower\":1,\"followee\":2\x7d\x7d"

/-- From the arrival of a message on, up to the lookup of devices. Latest first. -/
def oneDelivery : List (World × Move) :=
  [.deliver 0 (.turn 0), .deliver 0 (.turn 0), .deliver 0 .start, .pool (.start 0), .pool .hand,
    .pool .take, .pool .receive, .pool (.ask 0), .pool (.decide 0), .submit 0].map (plainWorld, ·)

/-- What user 2 hears. -/
def followErrand : Errand :=
  ⟨0, 0, .withDefaults 2, ⟨.newFollower, ⟨"new_follower_notification", ["one"]⟩,
    Arguments.empty.set "id" (.ofId 1) (Json.isCanonical_ofId 1), none, some 1⟩⟩

theorem sent_has_cause_oneDelivery :
    ∃ acts s, State.Run plainSettings (.create 1 1 1) acts s ∧
      messages acts = [(plainWorld, .arrive followMessage)] ∧
      .sent followErrand 0 "a" ∈ s.delivery.log ∧
      Nonempty (Cause plainSettings acts s followErrand 0 "a") := by
  have he : Event.decode? followMessage = some (.newFollower 1 2) := by decide +kernel
  have hrun : State.Run plainSettings (.create 1 1 1) [(plainWorld, .arrive followMessage)]
      ((State.create 1 1 1).enter plainSettings plainWorld (.newFollower 1 2)) :=
    .step _ .refl (by simp [State.act, State.step, State.arrive, he])
  obtain ⟨s, hs⟩ : ∃ s, play (State.act plainSettings)
      ((State.create 1 1 1).enter plainSettings plainWorld (.newFollower 1 2)) oneDelivery = some s :=
    ⟨_, rfl⟩
  have run := hrun.trans (trace_iff.2 hs)
  have hlog : s.delivery.log.head? = some (.sent followErrand 0 "a") := by cases hs; rfl
  have hsent := List.mem_of_mem_head? hlog
  exact ⟨_, s, run, rfl, hsent, (sent_has_cause run).1 followErrand 0 "a" hsent⟩

end Herald.Pipeline
