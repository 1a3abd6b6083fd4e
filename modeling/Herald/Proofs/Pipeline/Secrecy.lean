import Herald.Pipeline.Run
import Herald.Proofs.Delivery.Writes
import Herald.Proofs.Lookups
import Herald.Proofs.Pipeline.Causes

/-!
# Private rooms stay private

As long as every event about a room is about a private one, the room directory is never asked about
it, so that a pipeline runs alike whatever the directory would say, and however slowly. What is sent,
marked and stored comes from other events.

* `prepare_congr`, `State.step_congr`: what depends on the room directory.
* `Explained`: why messages were not submitted.
* `State.Run.writes`: what the cache holds, and which calls were made.
* `private_room_unseen`: all of it, for a whole run.
-/

namespace Herald

/-- The event is about another room, about none, or about something private. -/
def Event.Spares (room : RoomId) (e : Event) : Prop := e.room? = some room → e.isPrivate = true

namespace Pipeline

open Pool (submissions)
open Delivery (Errand Job Writes errandsOf)

variable {settings : Settings} {w w' : World} {s t : State} {m : Move}
  {acts acts' : List (World × Move)} {moves : List (Pool.Move Order)}
  {size capacity sinkCapacity : Nat} {room : RoomId} {e : Event}

/-! ## Two states of a room -/

/-- Two worlds differ at most in what the room directory says about a room. -/
structure World.AgreeBut (room : RoomId) (w w' : World) : Prop where
  users : w.directories.users = w'.directories.users
  rooms : ∀ id, id ≠ room → w.directories.rooms id = w'.directories.rooms id
  audience : w.audience = w'.audience
  delivery : w.delivery = w'.delivery

/-- The message of a move, if any, holds no event that gives the room away. -/
def Move.Spares (room : RoomId) (m : Move) : Prop := ∀ e, m.event? = some e → e.Spares room

theorem prepare_congr (h : w.AgreeBut room w') (hs : e.Spares room) :
    prepare settings w e = prepare settings w' e := by
  have hb : (Registry.standard w.directories settings.delivery.limit).build e =
      (Registry.standard w'.directories settings.delivery.limit).build e := by
    refine Registry.build_congr h.users fun id hr hp => h.rooms id ?_
    rintro rfl
    exact Bool.false_ne_true (hp.symm.trans (hs hr))
  have hr : resolver settings w = resolver settings w' := by
    unfold resolver; rw [h.audience]
  unfold prepare prepareWith
  rw [hb, hr]

/-- A move goes alike in both worlds. -/
theorem State.step_congr (h : w.AgreeBut room w') (hs : m.Spares room) (s : State) :
    s.step settings w m = s.step settings w' m := by
  have henter (e : Event) (he : e.Spares room) : s.enter settings w e = s.enter settings w' e := by
    unfold State.enter; rw [prepare_congr h he]
  cases m with
  | arrive payload =>
    simp only [State.step, State.arrive]
    cases he : Event.decode? payload with
    | none => rfl
    | some e => exact congrArg some (henter e (hs e he))
  | enter e => exact congrArg some (henter e (hs e rfl))
  | deliver worker m => simp only [State.step, h.delivery]
  | _ => rfl

/-- So does a whole run. -/
theorem play_congr (h : List.Forall₂ (fun a a' => a.1.AgreeBut room a'.1 ∧ a.2 = a'.2) acts acts')
    (hs : ∀ a ∈ acts, a.2.Spares room) (s : State) :
    play (State.act settings) s acts = play (State.act settings) s acts' := by
  induction h with
  | nil => rfl
  | @cons a a' acts acts' ha h ih =>
    obtain ⟨hw, hm⟩ := ha
    have ih := ih fun a ha => hs a (List.mem_cons_of_mem _ ha)
    have hstep (t : State) : t.act settings a = t.act settings a' := by
      unfold State.act
      rw [State.step_congr hw (hs a (List.mem_cons_self ..)), hm]
    simp only [play, ih, hstep]

/-! ### Running one after the other -/

/-- What happens on its own brings no message. -/
theorem State.event?_of_next? (h : s.next? settings = some m) : m.event? = none := by
  unfold State.next? at h
  split at h
  · cases h; rfl
  · split at h
    · cases h; rfl
    · split at h
      · cases h; rfl
      · obtain ⟨p, -, rfl⟩ := Option.map_eq_some_iff.1 h
        rfl

theorem State.run_congr (h : w.AgreeBut room w') (waits : State → Nat → Bool) (s : State) :
    s.run settings w waits = s.run settings w' waits := by
  have hfor (n : Nat) (s : State) :
      State.runFor settings w waits n s = State.runFor settings w' waits n s := by
    induction n generalizing s with
    | zero => rfl
    | succ n ih =>
      unfold State.runFor
      split
      · next m hm =>
        rw [State.step_congr h (m := m) fun e he => by rw [State.event?_of_next? hm] at he; cases he]
        split
        · exact ih _
        · rfl
      · simp only [ih]
  have hb : s.bound w = s.bound w' := by unfold State.bound; rw [h.delivery]
  unfold State.run
  rw [hb, hfor]

/-- Whatever is let through the pipeline, nobody can tell the two worlds apart. -/
theorem State.handle_congr (h : w.AgreeBut room w') (s : State) :
    (∀ payload, (Move.arrive payload).Spares room →
      s.handle settings w payload = s.handle settings w' payload) ∧
    (∀ e : Event, e.Spares room → s.handleEvent settings w e = s.handleEvent settings w' e) ∧
    (∀ ms, s.advance settings w ms = s.advance settings w' ms) ∧
    s.stop settings w = s.stop settings w' := by
  have hfinish (s : State) : s.finish settings w = s.finish settings w' := s.run_congr h _
  refine ⟨fun payload hs => ?_, fun e he => ?_, fun ms => ?_, hfinish _⟩
  · have harrive : s.arrive settings w payload = s.arrive settings w' payload :=
      Option.some.inj (s.step_congr h hs)
    unfold handle
    rw [harrive, hfinish]
  · have henter : s.enter settings w e = s.enter settings w' e :=
      Option.some.inj (s.step_congr (m := .enter e) h fun e' he' => Option.some.inj he' ▸ he)
    unfold handleEvent
    rw [henter, hfinish]
  · simp only [advance, s.run_congr h]

/-! ## Outcomes -/

/-- Why a message was not submitted: its event was prepared to that, or it held no event. -/
def Explained (settings : Settings) (acts : List (World × Move)) (f : Nat × Outcome) : Prop :=
  Origin settings acts f.1 (.error f.2) ∨
    f.2 = .malformed ∧ ∃ w m, (messages acts)[f.1]? = some (w, m) ∧ m.event? = none

theorem Explained.cons {f : Nat × Outcome} (h : Explained settings acts f) (a : World × Move) :
    Explained settings (a :: acts) f := by
  refine h.imp (·.cons a) fun ⟨hf, w, m, hm, he⟩ => ⟨hf, w, m, ?_, he⟩
  rw [messages_cons, List.getElem?_append_left (List.getElem?_eq_some_iff.1 hm).1, hm]

/-- A move adds no failure that is not explained. -/
theorem Provenance.explained (p : Provenance settings size capacity acts moves s)
    (hx : ∀ f ∈ s.failures, Explained settings acts f) (h : Step settings w s m t) :
    ∀ f ∈ t.failures, Explained settings ((w, m) :: acts) f := by
  have keep {failures : List (Nat × Outcome)} (h : failures = s.failures) :
      ∀ f ∈ failures, Explained settings ((w, m) :: acts) f := fun f hf => (hx f (h ▸ hf)).cons _
  cases h with
  | enter he => exact keep rfl
  | @malformed payload he =>
    intro f hf
    rcases List.mem_cons.1 hf with rfl | hf
    · refine .inr ⟨rfl, w, .arrive payload, ?_, he⟩
      rw [messages_cons, ← p.arrivals]
      simp [Move.isMessage]
    · exact keep rfl f hf
  | @submit position d hd hdue =>
    unfold State.submit
    split
    · next outcome hr =>
      intro f hf
      rcases List.mem_cons.1 hf with rfl | hf
      · exact .inl ((hr ▸ p.drafts d (List.mem_of_getElem? hd)).cons _)
      · exact keep rfl f hf
    · exact keep rfl
  | stop | pool | begin | finish | deliver | pass => exact keep rfl

theorem State.Run.explained
    (run : State.Run settings (State.create size capacity sinkCapacity) acts s) :
    ∀ f ∈ s.failures, Explained settings acts f := by
  induction run with
  | refl => exact fun f h => absurd h List.not_mem_nil
  | step a run e ih =>
    obtain ⟨moves, p⟩ := State.Run.provenance run
    exact p.explained ih (.of_step e)

/-- Nothing is built for what happens in a private room. -/
theorem prepare_private (h : e.isPrivate = true) :
    (prepare settings w e).value = .error .buildFailed := by
  cases e with
  | roomCreation room member visibility | roomJoin room member visibility =>
    cases visibility with
    | «private» => rfl
    | «public» => cases h
  | _ => cases h

theorem Origin.eq {number : Nat} {result : Except Outcome Job}
    (h : Origin settings acts number result) (hm : (messages acts)[number]? = some (w, m))
    (he : m.event? = some e) : result = (prepare settings w e).value := by
  obtain ⟨w', m', e', hm', he', rfl⟩ := h
  cases hm.symm.trans hm'
  cases he.symm.trans he'
  rfl

/-- A message about a private room comes to nothing, once its preparation is over. -/
theorem Provenance.outcome_private (p : Provenance settings size capacity acts moves s)
    (hx : ∀ f ∈ s.failures, Explained settings acts f) {number : Nat}
    (hm : (messages acts)[number]? = some (w, m)) (he : m.event? = some e)
    (hp : e.isPrivate = true) :
    (∀ o, s.outcome? number = some o → o = .buildFailed) ∧
    (s.outcome? number = none → ∃ d ∈ s.drafts, d.number = number ∧
      d.result = .error .buildFailed) := by
  have horigin {result : Except Outcome Job} (h : Origin settings acts number result) :
      result = .error .buildFailed := (h.eq hm he).trans (prepare_private hp)
  have hnot (o : Order) (ho : o ∈ submissions moves) : o.number ≠ number := by
    rintro rfl
    cases horigin (p.orders o ho)
  refine ⟨fun o ho => ?_, fun ho => ?_⟩
  · rcases p.failed_or_submitted ho with hf | ⟨order, hsub, hn⟩
    · rcases hx _ hf with h | ⟨-, w', m', hm', he'⟩
      · exact Except.error.inj (horigin h)
      · cases hm.symm.trans hm'
        rw [he] at he'; cases he'
    · exact absurd hn (hnot order hsub)
  · rcases p.drafted_or_submitted hm ho with ⟨d, hd, rfl⟩ | ⟨order, hsub, hn⟩
    · exact ⟨d, hd, rfl, horigin (p.drafts d hd)⟩
    · exact absurd hn (hnot order hsub)

/-- A preparation that is pending can be brought to its end. -/
theorem State.submits {d : Draft} {outcome : Outcome} (hd : d ∈ s.drafts)
    (hr : d.result = .error outcome) (w : World) : ∃ acts t, State.Run settings s acts t ∧
      t.outcome? d.number = some outcome := by
  obtain ⟨position, hd⟩ := List.mem_iff_getElem?.1 hd
  let u : State := { s with delivery := s.delivery.pass d.due }
  have hu : u.drafts[position]? = some d := hd
  have hdue : d.due ≤ u.now := Nat.le_max_right ..
  refine ⟨[(w, .submit position), (w, .pass d.due)], _, .step _ (.step _ .refl rfl) (by
    simp only [State.act, State.step]; rw [hu]; exact if_pos hdue), ?_⟩
  simp [State.submit, hr, State.outcome?]

/-! ## What is kept -/

/-- The calls that were made and what the cache holds belong to errands, other calls apart. -/
theorem State.Run.writes {other : Call → Prop}
    (run : State.Run settings (State.create size capacity sinkCapacity) acts s)
    (hcalls : ∀ a ∈ acts, ∀ e, a.2.event? = some e → (prepare settings a.1 e).CallsOnly other)
    (hr : ∀ token, other (.removeDevice token)) :
    Writes settings.delivery other (errandsOf (jobsOf s.pool.started)) s.delivery.waiting
      s.delivery.flights s.delivery.clock.cache s.delivery.log := by
  induction run with
  | refl =>
    rw [Deliveries.waiting_create, Deliveries.flights_create]
    exact ⟨fun _ h => absurd h List.not_mem_nil, fun _ h => absurd h List.not_mem_nil,
      fun _ _ h => (nomatch h), fun _ _ h => absurd h List.not_mem_nil,
      fun _ h => absurd h List.not_mem_nil⟩
  | @step acts s t a run hstep ih =>
    have v := ih fun a ha => hcalls a (List.mem_cons_of_mem _ ha)
    obtain ⟨moves, p⟩ := State.Run.provenance run
    have d := State.Run.deliveries run
    obtain ⟨w, m⟩ := a
    cases (Step.of_step hstep).served with
    | calls calls _ hst hd hasked =>
      rw [hst, hd]
      refine { v with calls := fun c hc => ?_ }
      rcases List.mem_append.1 hc with hc | hc
      · obtain ⟨c', hm, hc⟩ := List.mem_map.1 (List.mem_reverse.1 hc)
        cases hc
        obtain ⟨e, he, hm⟩ := hasked c hm
        exact .inl (hcalls (w, m) (List.mem_cons_self ..) e he c hm)
      · exact v.calls c hc
    | begin _ hst hlt hd =>
      rw [errandsOf_started hst, hd]
      exact v.assign_state (by rw [d.workers, ← p.pool.sized.workers]; exact hlt)
    | deliver hd hst =>
      rw [hst]
      exact v.move hr hd
    | pass hst hd =>
      rw [hst, hd]
      exact v

/-- A call names a room: it asks for its state, or it is about a cooldown in its context. -/
def Mentions (room : RoomId) : Call → Prop
  | .room id => id = room
  | .markExists key | .setMark key _ => ∃ user c, key = Cooldown.key user c room
  | _ => False

/-- What is asked for an event that spares a room does not mention it. -/
theorem not_mentions_prepare (hs : e.Spares room) :
    (prepare settings w e).CallsOnly fun c => ¬ Mentions room c := by
  have hb : ((Registry.standard w.directories settings.delivery.limit).build e).run.CallsOnly
      fun c => ¬ Mentions room c := by
    refine Registry.callsOnly_build (fun _ h => h) fun id hr hp => ?_
    rintro rfl
    exact Bool.false_ne_true (hp.symm.trans (hs hr))
  have hr : ((resolver settings w).resolve e).run.CallsOnly fun c => ¬ Mentions room c :=
    Resolver.callsOnly_resolve (fun _ h => h) (fun _ h => h) fun _ h => h
  have q := Timed.hereditary_callsOnly fun c => ¬ Mentions room c
  exact q.bind (q.both hb hr) fun _ => q.pure _

/-- The errand serves an event that is about another room, or about none. -/
def Elsewhere (settings : Settings) (acts : List (World × Move)) (room : RoomId)
    (errand : Errand) : Prop :=
  ∃ w m e, (messages acts)[errand.job]? = some (w, m) ∧ m.event? = some e ∧
    e.room? ≠ some room ∧
    ((Registry.standard w.directories settings.delivery.limit).build e).run.value =
      .ok errand.notification

theorem mem_of_mem_messages {a : World × Move} (h : a ∈ messages acts) : a ∈ acts := by
  obtain ⟨b, hb, hab⟩ := mem_pick.1 h
  split at hab
  · cases hab; exact hb
  · cases hab

theorem Provenance.elsewhere (p : Provenance settings size capacity acts moves s)
    (hs : ∀ a ∈ acts, a.2.Spares room) {errand : Errand}
    (h : errand ∈ errandsOf (jobsOf s.pool.started)) : Elsewhere settings acts room errand := by
  obtain ⟨order, ho, he⟩ := p.order_of_errand h
  obtain ⟨hjob, hnot, -⟩ := Delivery.Job.mem_errands.1 he
  obtain ⟨w, m, e, hm, hev, hprep⟩ := p.origin_of_accepted ho
  have hb := (prepare_ok hprep).1
  refine ⟨w, m, e, hjob ▸ hm, hev, fun hr => ?_, hnot ▸ hb⟩
  have hpriv := hs _ (mem_of_mem_messages (List.mem_of_getElem? hm)) e hev hr
  exact Bool.false_ne_true ((Registry.not_private_of_build hb).symm.trans hpriv)

variable {errand : Errand}

/-- What is delivered elsewhere does not name the room. -/
theorem Elsewhere.unnamed (h : Elsewhere settings acts room errand) :
    errand.notification.collapseKey ≠ some room ∧
      errand.notification.arguments.members.lookup "id" ≠ some (.text room) := by
  obtain ⟨w, m, e, -, -, hr, hb⟩ := h
  obtain ⟨-, hk, ha⟩ := Registry.room_of_build hb
  exact ⟨hk ▸ hr, fun hl => hr ((ha room).1 hl)⟩

theorem Elsewhere.key_ne (h : Elsewhere settings acts room errand) {window : Cooldown.Window}
    (hw : errand.window? settings.delivery.cooldowns = some window) (user : UserId)
    (c : Cooldown.Class) : window.key ≠ Cooldown.key user c room := by
  obtain ⟨c', context, -, hk, rfl⟩ := Cooldown.window?_eq_some.1 hw
  intro hkey
  obtain ⟨-, -, rfl⟩ := Cooldown.key_inj hkey
  exact h.unnamed.1 hk

theorem Elsewhere.not_mentions (h : Elsewhere settings acts room errand) {c : Call}
    (hc : Delivery.Asks settings.delivery errand c) : ¬ Mentions room c := by
  cases c with
  | markExists key =>
    obtain ⟨window, hw, rfl⟩ := hc
    rintro ⟨user, c, hk⟩
    exact h.key_ne hw user c hk
  | setMark key ttl =>
    rintro ⟨user, c, hk⟩
    exact h.key_ne hc user c hk
  | room => cases hc
  | _ => exact id

/-- As long as every event about a room is about a private one, nobody learns what the room directory
says of the room.

Moves that are possible for one state of the room are possible for any other, and lead to the same
pipeline; so do messages that go through one after the other. Each message about the room comes to
nothing and is dropped as soon as it has been prepared. No call mentions the room, and whatever is
sent to a device, marked in the cache or put into a history is of another event, and has another name
or none. -/
theorem private_room_unseen
    (run : State.Run settings (State.create size capacity sinkCapacity) acts s)
    (hs : ∀ a ∈ acts, a.2.Spares room) :
    (∀ acts', List.Forall₂ (fun a a' => a.1.AgreeBut room a'.1 ∧ a.2 = a'.2) acts acts' →
      ∀ t, State.Run settings (State.create size capacity sinkCapacity) acts' t ↔ t = s) ∧
    (∀ w w' : World, w.AgreeBut room w' → ∀ u : State,
      (∀ payload, (Move.arrive payload).Spares room →
        u.handle settings w payload = u.handle settings w' payload) ∧
      (∀ e : Event, e.Spares room → u.handleEvent settings w e = u.handleEvent settings w' e) ∧
      (∀ ms, u.advance settings w ms = u.advance settings w' ms) ∧
      u.stop settings w = u.stop settings w') ∧
    (∀ number w m e, (messages acts)[number]? = some (w, m) → m.event? = some e →
      e.room? = some room →
      (∀ o, s.outcome? number = some o → o = .buildFailed) ∧
      (s.drafts = [] → s.outcome? number = some .buildFailed) ∧
      ∃ acts' t, State.Run settings s acts' t ∧ t.outcome? number = some .buildFailed) ∧
    (∀ c, .called c ∈ s.delivery.log → ¬ Mentions room c) ∧
    (∀ errand index token, .sent errand index token ∈ s.delivery.log →
      Elsewhere settings acts room errand ∧ errand.notification.collapseKey ≠ some room ∧
      errand.notification.arguments.members.lookup "id" ≠ some (.text room)) ∧
    (∀ key ends, s.delivery.clock.cache.mark? key = some ends →
      (∃ errand, Elsewhere settings acts room errand ∧
        ∃ window, errand.window? settings.delivery.cooldowns = some window ∧ window.key = key) ∧
      ∀ user c, key ≠ Cooldown.key user c room) ∧
    (∀ key, ∀ text ∈ s.delivery.clock.cache.entries key,
      ∃ errand time, Elsewhere settings acts room errand ∧
        key = History.key errand.user ∧ text = (errand.entry time).encode) := by
  obtain ⟨⟨moves, p⟩, d⟩ := run.invariants (fun _ => True) fun _ _ => trivial
  have v : Writes settings.delivery (fun c => ¬ Mentions room c) _ _ _ _ _ :=
    run.writes (fun a ha e he => not_mentions_prepare (hs a ha e he)) fun _ h => h
  have helse {errand : Errand} (h : errand ∈ errandsOf (jobsOf s.pool.started)) :
      Elsewhere settings acts room errand := p.elsewhere hs h
  refine ⟨fun acts' h t => ?_, fun w w' h u => u.handle_congr h, ?_, ?_, ?_, ?_, ?_⟩
  · have hplay : play (State.act settings) (.create size capacity sinkCapacity) acts = _ :=
      play_congr h hs _
    rw [State.Run, trace_iff, ← hplay, trace_iff.1 run, Option.some.injEq, eq_comm]
  · intro number w m e hm he hr
    have hpriv := hs (w, m) (mem_of_mem_messages (List.mem_of_getElem? hm)) e he hr
    obtain ⟨ho, hd⟩ := p.outcome_private run.explained hm he hpriv
    cases hout : s.outcome? number with
    | some o =>
      obtain rfl := ho o hout
      exact ⟨fun o h => (Option.some.inj h).symm, fun _ => rfl, [], s, .refl, hout⟩
    | none =>
      obtain ⟨draft, hdraft, rfl, hresult⟩ := hd hout
      refine ⟨fun o h => (nomatch h), fun h => ?_, State.submits hdraft hresult w⟩
      rw [h] at hdraft; cases hdraft
  · intro c hc
    rcases v.calls c hc with h | ⟨errand, he, h⟩
    · exact h
    · exact (helse he).not_mentions h
  · intro errand index token h
    have he := helse (d.books.known _ h errand rfl)
    exact ⟨he, he.unnamed⟩
  · intro key ends h
    obtain ⟨errand, he, window, hw, rfl⟩ := v.marks key ends h
    exact ⟨⟨errand, helse he, window, hw, rfl⟩, (helse he).key_ne hw⟩
  · intro key text h
    obtain ⟨errand, he, time, hk, rfl⟩ := v.entries key text h
    exact ⟨errand, time, helse he, hk, rfl⟩

/-- Users have one device each, and user 2 follows user 1. The room directory may say what it likes of
one room; user 1 is in every other one. -/
def secretWorld (secret : Reply Failure (Option Room)) : World where
  directories := ⟨fun _ _ => .now (some "one"), fun id =>
    if id = "secret" then secret else .now (some ⟨id, none, [⟨1, "one"⟩]⟩)⟩
  audience := ⟨fun _ _ => ⟨0, .error .notFound⟩, fun _ => .now [.withDefaults 2], fun _ => .now []⟩
  delivery := plainWorld.delivery

/-- User 1 opens a private room and a public one, and the latter is heard of. Latest first. -/
def secretMoves : List Move :=
  [.deliver 0 (.turn 0), .deliver 0 (.turn 0), .deliver 0 (.turn 0), .pass 3, .deliver 0 (.turn 0),
    .deliver 0 (.turn 0), .deliver 0 (.turn 0), .deliver 0 .start, .pool (.start 0), .pool .hand,
    .pool .take, .pool .receive, .pool (.ask 0), .pool (.decide 0), .submit 0, .submit 0,
    .enter (.roomCreation "open" 1 .public), .enter (.roomCreation "secret" 1 .private)]

/-- The private room is empty, or the directory is slow and fails; the public one is marked. -/
theorem private_room_unseen_secret :
    let empty : List (World × Move) := secretMoves.map (secretWorld (.now (some ⟨"", none, []⟩)), ·)
    let slow : List (World × Move) := secretMoves.map (secretWorld ⟨9, .error (.reported "")⟩, ·)
    ∃ s, State.Run plainSettings (.create 1 1 1) empty s ∧
      State.Run plainSettings (.create 1 1 1) slow s ∧ s.outcome? 0 = some .buildFailed ∧
      (∃ ends, s.delivery.clock.cache.mark? (Cooldown.key 2 .roomActivity "open") = some ends) ∧
      ∀ user c, s.delivery.clock.cache.mark? (Cooldown.key user c "secret") = none := by
  intro empty slow
  obtain ⟨s, hs⟩ : ∃ s, play (State.act plainSettings) (.create 1 1 1) empty = some s := ⟨_, rfl⟩
  have run : State.Run plainSettings (.create 1 1 1) empty s := trace_iff.2 hs
  have spares : ∀ a ∈ empty, a.2.Spares "secret" := by
    simp [empty, secretMoves, Move.Spares, Move.event?, Event.Spares, Event.room?, Event.isPrivate]
  have agree : List.Forall₂ (fun a a' => a.1.AgreeBut "secret" a'.1 ∧ a.2 = a'.2) empty slow := by
    rw [List.forall₂_map_left_iff, List.forall₂_map_right_iff, List.forall₂_same]
    exact fun _ _ => ⟨⟨rfl, fun id h => by simp [secretWorld, h], rfl, rfl⟩, rfl⟩
  obtain ⟨alike, -, dropped, -, -, marks, -⟩ := private_room_unseen run spares
  have hdrafts : s.drafts = [] := by cases hs; rfl
  refine ⟨s, run, (alike slow agree s).2 rfl, (dropped 0 _ _ _ rfl rfl rfl).2.1 hdrafts, ?_, ?_⟩
  · cases hs
    exact ⟨_, rfl⟩
  · intro user c
    refine Option.eq_none_iff_forall_ne_some.2 fun ends h => ?_
    exact (marks _ ends h).2 user c rfl

end Pipeline

end Herald
