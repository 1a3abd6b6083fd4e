import Herald.Proofs.Delivery.Archive
import Herald.Proofs.Pipeline.Futile
import Herald.Proofs.Registry

/-!
# Whom histories name

Whoever has a new follower or may welcome a newcomer finds the message in the history later on. The entry
names the user whose doing the event was, and says what the message said.

* `archive`: what is done about histories in a run of a pipeline.
* `State.Run.recorded`: how it agrees with the jobs that have started, and with the cache.
* `histories_attributed`: what is done for each event, and whom the entries name.
-/

namespace Herald.Pipeline

open Delivery (Archive Books Errand Filing Happening Kept Record errandsOf filing filingsOf)

variable {settings : Settings} {worlds : Delivery.World → Prop} {w : World} {s t : State} {m : Move}
  {acts : List (World × Move)} {moves : List (Pool.Move Order)} {size capacity sinkCapacity : Nat}

/-! ## Runs -/

/-- What a move does about histories. -/
def State.filings (settings : Settings) (s : State) (a : World × Move) : List Filing :=
  match a.2 with
  | .deliver worker m => s.delivery.filings settings.delivery a.1.delivery worker m
  | _ => []

/-- What is done about histories, latest first. -/
def archive (settings : Settings) (s : State) (acts : List (World × Move)) : List Filing :=
  seen (State.act settings) (State.filings settings) s acts

variable {filings : List Filing}

/-- The jobs that have started agree with what was done about histories. -/
def Recorded (settings : Settings) (worlds : Delivery.World → Prop) (s : State) (filings : List Filing) :
    Prop :=
  Archive settings.delivery worlds filings (errandsOf (jobsOf s.pool.started)) s.delivery.waiting
    s.delivery.flights s.delivery.clock.cache s.delivery.log

theorem push?_of_preparatory {c : Call} (h : c.isPreparatory = true) :
    Delivery.Happening.push? (.called c) = none := by
  cases c <;> first | rfl | cases h

theorem Recorded.step (v : Recorded settings worlds s filings) (d : Deliveries settings worlds size s)
    (h : Step settings w s m t) (hs : s.pool.workers.length = size)
    (hn : (t.pool.started.map (·.2.number)).Nodup) (hw : worlds w.delivery) :
    Recorded settings worlds t (s.filings settings (w, m) ++ filings) := by
  have hn : ((errandsOf (jobsOf t.pool.started)).map (·.key)).Nodup :=
    Delivery.nodup_keys (by rw [jobsOf, List.map_map]; exact hn)
  have hseen (hm : ∀ worker d, m ≠ .deliver worker d) : s.filings settings (w, m) = [] := by
    cases m with
    | deliver worker d => exact absurd rfl (hm worker d)
    | _ => rfl
  unfold Recorded at v ⊢
  cases h.served with
  | calls calls hm hst hd hasked =>
    rw [hseen hm, hst, hd]
    refine v.calls fun c hc => ?_
    obtain ⟨e, -, he⟩ := hasked c hc
    exact push?_of_preparatory (preparatory_prepare c he)
  | begin hm hst hlt hd =>
    rw [errandsOf_started hst] at hn ⊢
    rw [hseen hm, hd]
    exact v.assign_state hn (by rw [d.workers, ← hs]; exact hlt)
  | deliver hd hst =>
    rw [hst] at hn ⊢
    exact v.move d.books hn hw hd
  | pass hst hd =>
    rw [hst, hd]
    exact v

/-- What is done about histories in a run. -/
theorem State.Run.recorded (worlds : Delivery.World → Prop)
    (run : State.Run settings (State.create size capacity sinkCapacity) acts s)
    (hw : ∀ a ∈ acts, worlds a.1.delivery) :
    Recorded settings worlds s (archive settings (State.create size capacity sinkCapacity) acts) := by
  induction run with
  | refl =>
    refine Archive.perm .nil ?_ ?_
    · exact .of_eq Deliveries.waiting_create.symm
    · exact .of_eq Deliveries.flights_create.symm
  | @step acts s t a run e ih =>
    have hw' : ∀ a ∈ acts, worlds a.1.delivery := fun a ha => hw a (List.mem_cons_of_mem _ ha)
    obtain ⟨⟨moves, p⟩, d⟩ := State.Run.invariants worlds run hw'
    have hstep : Step settings a.1 s a.2 t := .of_step e
    obtain ⟨moves', p'⟩ := p.step hstep
    rw [archive, Trace.seen_cons run]
    exact (ih hw').step d hstep p.pool.sized.workers p'.nodup_started (hw a (List.mem_cons_self ..))

/-! ## Errands of events -/

/-- An errand of a job that was accepted is told by its key. -/
theorem Provenance.errand_unique (p : Provenance settings size capacity acts moves s) {o : Order}
    (ho : o ∈ s.pool.accepted) {e e' : Errand} (he : e ∈ o.job.errands o.number)
    (he' : e' ∈ errandsOf (jobsOf s.pool.started)) (hk : e'.key = e.key) : e' = e := by
  obtain ⟨o', ho', he'⟩ := p.order_of_errand he'
  obtain ⟨hj, hn, ht⟩ := Delivery.Job.mem_errands.1 he
  obtain ⟨hj', hn', ht'⟩ := Delivery.Job.mem_errands.1 he'
  obtain ⟨hjob, hpos⟩ := Prod.mk.inj hk
  have hnumber : o'.number = o.number := hj'.symm.trans (hjob.trans hj)
  obtain rfl := List.inj_on_of_nodup_map (List.nodup_append.1 p.nodup_accepted).1 ho' ho hnumber
  rw [hpos, ht] at ht'
  cases e; cases e'
  simp_all

/-- An errand was served: it is over, and the devices of its recipient were found. -/
def Delivered (log : List Happening) (e : Errand) : Prop :=
  (Record.of e.key log).endings = [e] ∧ ∃ tokens, (Record.of e.key log).answers = [.ok tokens]

/-- What is done about histories for an errand of an event. -/
structure Attributed (settings : Settings) (worlds : Delivery.World → Prop) (log : List Happening)
    (filings : List Filing) (event : Event) (e : Errand) : Prop where
  /-- Until it is over, an entry is asked for at most once. -/
  early : (Record.of e.key log).endings = [] →
    filingsOf e.key filings = [] ∨ ∃ entry, filingsOf e.key filings = [.asked e entry]
  /-- One entry is asked for, and it is kept if the cache says so in time. -/
  served : Delivered log e → event.kind = .newFollower ∨ event.kind = .welcomeRoom →
    ∃ v, worlds v ∧ filingsOf e.key filings = filing settings.delivery e v
  unkept : ¬(event.kind = .newFollower ∨ event.kind = .welcomeRoom) → filingsOf e.key filings = []
  unserved : (Record.of e.key log).endings = [e] → ¬Delivered log e → filingsOf e.key filings = []
  /-- The entry names the one whose doing the event is. -/
  named : e.notification.origin = some event.origin ∧
    ∀ x ∈ filingsOf e.key filings, x.errand = e ∧ x.entry.sender = event.origin
  /-- It says what the messages to the devices say. -/
  said : ∀ x ∈ filingsOf e.key filings, ∀ e' index token, .sent e' index token ∈ log →
    e'.key = e.key → x.entry.category = e'.notification.category ∧
      x.entry.arguments = e'.notification.arguments

/-- What was done for an errand of an event, by where the errand is. -/
theorem Attributed.of_kept {log : List Happening} {event : Event} {e : Errand}
    (k : Kept settings.delivery worlds e (filingsOf e.key filings) (Record.of e.key log))
    (hc : e.notification.category = event.kind.category)
    (ho : e.notification.origin = some event.origin)
    (hsent : ∀ e' index token, .sent e' index token ∈ log → e'.key = e.key → e' = e) :
    Attributed settings worlds log filings event e where
  early hends := by
    rcases k with ⟨-, hf⟩ | ⟨-, -, -, hf⟩ | ⟨hover, -⟩
    · exact .inl hf
    · exact .inr ⟨_, hf⟩
    · cases hends.symm.trans hover
  served hd _ := by
    obtain ⟨hends, hfound⟩ := hd
    have hs : e.notification.category.isStorable = true := by
      rw [hc]
      exact EventKind.isStorable_category.2 ‹_›
    rcases k with ⟨hnot, -⟩ | ⟨hnot, -⟩ | ⟨-, ⟨-, hf⟩ | ⟨hdue, -⟩⟩
    · cases hends.symm.trans hnot
    · cases hends.symm.trans hnot
    · exact hf
    · exact absurd ⟨hs, hfound⟩ hdue
  unkept hkind := by
    have hs (h : e.notification.category.isStorable = true) : False :=
      hkind (EventKind.isStorable_category.1 (hc ▸ h))
    rcases k with ⟨-, hf⟩ | ⟨-, hstorable, -⟩ | ⟨-, ⟨hdue, -⟩ | ⟨-, hf⟩⟩
    · exact hf
    · exact (hs hstorable).elim
    · exact (hs hdue.1).elim
    · exact hf
  unserved hends hd := by
    rcases k with ⟨-, hf⟩ | ⟨hnot, -⟩ | ⟨-, ⟨hdue, -⟩ | ⟨-, hf⟩⟩
    · exact hf
    · cases hends.symm.trans hnot
    · exact absurd ⟨hends, hdue.2⟩ hd
    · exact hf
  named := by
    refine ⟨ho, fun x hx => ?_⟩
    obtain ⟨he, -, v, -, hentry⟩ := k.own hx
    refine ⟨he, ?_⟩
    rw [hentry]
    show e.notification.origin.getD 0 = event.origin
    rw [ho]
    rfl
  said x hx e' index token hm hk := by
    obtain ⟨-, -, v, -, hentry⟩ := k.own hx
    rw [hsent e' index token hm hk, hentry]
    exact ⟨rfl, rfl⟩

/-! ## Histories -/

/-- What is built for an event is the doing of the one whose doing the event is, and so are the entries
that deliveries leave behind.

A job that a pipeline took on was built for the event of its message, for the recipients of that event.
For each of them, once the delivery is over, one entry was asked for if the devices of the recipient were
found and the event is about a new follower or a newcomer, and none otherwise; while it lasts there is at
most this one. An entry names the one whose doing the event is, who is never made up, and it says what
the messages to the devices said.

There are no other entries. Each history holds those that the cache has kept, the latest first and as
many as the settings allow, and nothing else is asked of it. -/
theorem histories_attributed :
    (∀ directories limit kind e n,
      (Registry.builderFor directories limit kind e).run.value = .ok n → n.origin = some e.origin) ∧
    (∀ directories limit e n,
      ((Registry.standard directories limit).build e).run.value = .ok n → n.origin = some e.origin) ∧
    ∀ settings size capacity sinkCapacity acts s,
      State.Run settings (.create size capacity sinkCapacity) acts s →
      let filings := archive settings (.create size capacity sinkCapacity) acts
      (∀ o ∈ s.pool.accepted, ∃ v message event, (messages acts)[o.number]? = some (v, message) ∧
        message.event? = some event ∧
        ((Registry.standard v.directories settings.delivery.limit).build event).run.value =
          .ok o.job.notification ∧
        ((resolver settings v).resolve event).run.value = .ok o.job.targets ∧
        ∀ e ∈ o.job.errands o.number,
          Attributed settings (fun v => ∃ a ∈ acts, a.1.delivery = v) s.delivery.log filings event e) ∧
      (∀ x ∈ filings, ∃ o ∈ s.pool.accepted, x.errand ∈ o.job.errands o.number) ∧
      (∀ key, s.delivery.clock.cache.entries key =
        (filings.filterMap (Filing.text? key)).take settings.delivery.historyCap) ∧
      pick Happening.push? s.delivery.log = pick (Filing.request? settings.delivery) filings := by
  refine ⟨fun directories limit kind e n h => Registry.origin_of_builder h,
    fun directories limit e n h => Registry.origin_of_build h,
    fun settings size capacity sinkCapacity acts s run => ?_⟩
  intro filings
  let worlds (v : Delivery.World) : Prop := ∃ a ∈ acts, a.1.delivery = v
  have hworlds : ∀ a ∈ acts, worlds a.1.delivery := fun a ha => ⟨a, ha, rfl⟩
  obtain ⟨⟨moves, p⟩, d⟩ := run.invariants worlds hworlds
  have v := run.recorded worlds hworlds
  refine ⟨fun o ho => ?_, fun x hx => p.order_of_errand (v.known x hx), v.entries, v.requests⟩
  obtain ⟨world, message, event, hm, hev, hprep⟩ := p.origin_of_accepted ho
  obtain ⟨hbuilt, hresolved⟩ := prepare_ok hprep
  refine ⟨world, message, event, hm, hev, hbuilt, hresolved, fun e he => ?_⟩
  have hnot := (Delivery.Job.mem_errands.1 he).2.1
  have hunique {e' : Errand} : e' ∈ errandsOf (jobsOf s.pool.started) → e'.key = e.key → e' = e :=
    p.errand_unique ho he
  refine .of_kept ?_ ?_ ?_ fun e' index token hsent hk => hunique (d.books.known _ hsent e' rfl) hk
  · by_cases hmem : e ∈ errandsOf (jobsOf s.pool.started)
    · exact v.sound d.books hmem
    · -- The job has not started.
      have hno : Record.of e.key s.delivery.log = {} := Record.of_others fun h hh e' he' hk =>
        hmem (hunique (d.books.known h hh e' he') hk ▸ d.books.known h hh e' he')
      refine .early (by rw [hno]) (List.filter_eq_nil_iff.2 fun x hx hk => ?_)
      exact hmem (hunique (v.known x hx) (of_decide_eq_true hk) ▸ v.known x hx)
  · rw [hnot]
    exact (Registry.room_of_build hbuilt).1
  · rw [hnot]
    exact Registry.origin_of_build hbuilt

/-- From the event that user 1 follows user 2 up to the end of the errand. Latest first. -/
def oneEntry : List (World × Move) :=
  [.deliver 0 (.turn 0), .deliver 0 (.turn 0), .deliver 0 (.turn 0), .pass 3].map (plainWorld, ·) ++
    oneDelivery ++ [(plainWorld, .enter (.newFollower 1 2))]

/-- User 2 finds in the history that user 1 is a new follower. -/
theorem histories_attributed_oneEntry : ∃ s, State.Run plainSettings (.create 1 1 1) oneEntry s ∧
    filingsOf followErrand.key (archive plainSettings (.create 1 1 1) oneEntry) =
      [.kept followErrand (followErrand.entry 0), .asked followErrand (followErrand.entry 0)] ∧
    (followErrand.entry 0).sender = 1 ∧
    s.delivery.clock.cache.entries (History.key 2) = [(followErrand.entry 0).encode] := by
  obtain ⟨-, -, along⟩ := histories_attributed
  obtain ⟨s, hs⟩ : ∃ s, play (State.act plainSettings) (.create 1 1 1) oneEntry = some s := ⟨_, rfl⟩
  have run : State.Run plainSettings (.create 1 1 1) oneEntry s := trace_iff.2 hs
  obtain ⟨jobs, -, entries, -⟩ := along _ _ _ _ _ _ run
  obtain ⟨o, ho, he⟩ : ∃ o, o ∈ s.pool.accepted ∧ followErrand ∈ o.job.errands o.number := by
    cases hs
    exact ⟨_, List.mem_singleton.2 rfl, List.mem_singleton.2 rfl⟩
  obtain ⟨v, message, event, hm, hev, -, -, each⟩ := jobs o ho
  have hevent : event = .newFollower 1 2 := by
    rw [← (Delivery.Job.mem_errands.1 he).1] at hm
    cases hm
    exact (Option.some.inj hev).symm
  subst hevent
  have hdelivered : Delivered s.delivery.log followErrand := by
    cases hs
    exact ⟨rfl, _, rfl⟩
  obtain ⟨_, ⟨a, ha, rfl⟩, hfilings⟩ := (each _ he).served hdelivered (.inl rfl)
  have hplain : a.1 = plainWorld := by
    have hmem : a.1 ∈ oneEntry.map (·.1) := List.mem_map_of_mem ha
    have hall : oneEntry.map (·.1) = List.replicate 15 plainWorld := rfl
    exact List.eq_of_mem_replicate (hall ▸ hmem)
  rw [hplain] at hfilings
  have hnamed := (each _ he).named.2 (.asked followErrand (followErrand.entry 0))
    (by rw [hfilings]; exact List.mem_cons_of_mem _ (List.mem_cons_self ..))
  exact ⟨s, run, hfilings, hnamed.2, entries _⟩

end Herald.Pipeline
