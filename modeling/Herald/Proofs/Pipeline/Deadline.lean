import Herald.Pipeline
import Herald.Proofs.Delivery.Deadline
import Herald.Proofs.Delivery.Overrun
import Herald.Proofs.Lookups

/-!
# Nothing waits for long

Every call to a collaborator is under a limit. What runs side by side takes no longer than its longest
part, so that a notification is built within one limit and its recipients are worked out within one or two,
and a job takes five limits for each round of recipients. What overruns ends with a failure, exactly when
the limit is over.

* `Registry.elapsed_build_le`, `Resolver.elapsed_resolve_le`: how long preparations take.
* `Pipeline.InTime`: the limits of all parts.
* `Pipeline.in_time`: they hold, whatever the collaborators do.
-/

namespace Herald

variable {ε α β : Type} {limit : Limit} {m n : Nat}

/-! ## Preparations -/

namespace Timed

/-- One after the other, times add up. -/
theorem elapsed_run_bind_le {x : ExceptT ε Timed α} {f : α → ExceptT ε Timed β}
    (hx : x.run.elapsed ≤ m) (hf : ∀ a, (f a).run.elapsed ≤ n) : (x >>= f).run.elapsed ≤ m + n := by
  have hrest (r : Except ε α) : (ExceptT.bindCont f r).elapsed ≤ n := by
    cases r with
    | ok a => exact hf a
    | error cause => exact Nat.zero_le n
  exact Nat.add_le_add hx (hrest _)

theorem elapsed_lift_le {t : Timed α} (h : t.elapsed ≤ n) :
    (ExceptT.lift t : ExceptT ε Timed α).run.elapsed ≤ n := h

/-- A call that overruns. -/
theorem call_of_lt [OfFailure ε] {r : Reply ε α} (h : limit.expiry < r.delay) (operation : String)
    (c : Call) : Timed.call limit operation c r =
      ⟨.error (ofFailure (.timedOut operation limit)), limit.expiry, [c]⟩ := by
  rw [Timed.call, Delivery.Reply.within_of_lt h]

end Timed

open Timed

namespace Content.Lookups

variable {l : Lookups} {operation : String} {c : Call} {r : Reply Failure (Option α)} {absent : BuildError}

theorem elapsed_ask_le : (l.ask operation c r absent).run.elapsed ≤ l.limit.expiry := by
  show (Timed.call l.limit operation c r >>= _).elapsed ≤ _
  rw [elapsed_bind]
  rcases (Timed.call l.limit operation c r).value with cause | (_ | a) <;>
    exact elapsed_call_le l.limit operation c r

/-- A lookup that overruns fails like any other. -/
theorem ask_of_lt (h : l.limit.expiry < r.delay) : (l.ask operation c r absent).run =
    ⟨.error (.lookup (.timedOut operation l.limit)), l.limit.expiry, [c]⟩ := by
  show Timed.call l.limit operation c r >>= _ = _
  rw [call_of_lt h]
  rfl

end Content.Lookups

namespace Registry

open Content Lookups

/-- Building a notification takes one limit at most. -/
theorem elapsed_build_le (directories : Directories) (limit : Limit) (e : Event) :
    ((standard directories limit).build e).run.elapsed ≤ limit.expiry := by
  have hname (position : Nat) (user : UserId) :
      (Lookups.name ⟨directories, limit⟩ position user).run.elapsed ≤ limit.expiry := elapsed_ask_le
  have hroom (id : RoomId) : (Lookups.room ⟨directories, limit⟩ id).run.elapsed ≤ limit.expiry :=
    elapsed_ask_le
  have hrest {ε α β : Type} {x : Except ε α} {f : α → ExceptT ε Timed β}
      (hf : ∀ a, (f a).run.elapsed ≤ 0) : (ExceptT.mk (pure x) >>= f).run.elapsed ≤ 0 :=
    elapsed_run_bind_le (m := 0) (x := ExceptT.mk (pure x)) (Nat.le_refl 0) hf
  cases e with
  | newFollower follower followee => exact elapsed_run_bind_le (n := 0) (hname _ _) fun _ => Nat.le_refl 0
  | roomCreation id actor visibility | roomJoin id actor visibility =>
    cases visibility with
    | «private» => exact Nat.zero_le _
    | «public» =>
      exact elapsed_run_bind_le (n := 0) (hroom id) fun _ => hrest fun _ => Nat.le_refl 0
  | roomInvite id host guest =>
    -- Host and room are looked up side by side.
    exact elapsed_run_bind_le (n := 0) (elapsed_lift_le (Nat.max_le.2 ⟨hname _ _, hroom _⟩)) fun _ =>
      hrest fun _ => hrest fun _ => Nat.le_refl 0
  | welcomeRoom user id => exact elapsed_run_bind_le (n := 0) (hname _ _) fun _ => Nat.le_refl 0
  | followRecommendations user accounts =>
    refine elapsed_run_bind_le (n := 0) (elapsed_lift_le (elapsed_all_le fun t ht => ?_)) fun _ =>
      hrest fun _ => hrest fun _ => Nat.le_refl 0
    obtain ⟨p, -, rfl⟩ := List.mem_map.1 ht
    exact hname _ _

end Registry

namespace Resolver

variable {r : Resolver}

theorem elapsed_user_le (position : Nat) (id : UserId) :
    (r.user position id).run.elapsed ≤ r.limit.expiry :=
  elapsed_call_le _ _ (.settings id) _

theorem elapsed_followers_le (id : UserId) : (r.followers id).run.elapsed ≤ r.limit.expiry :=
  elapsed_call_le _ _ (.followers id) _

theorem elapsed_activeUsers_le : r.activeUsers.run.elapsed ≤ r.limit.expiry :=
  elapsed_call_le _ _ (.activeUsers r.recentLimit) _

/-- All greeters are looked up side by side, after the active users. -/
theorem elapsed_welcomers_le (newcomer : UserId) :
    (r.welcomers newcomer).run.elapsed ≤ r.limit.expiry + r.limit.expiry := by
  refine elapsed_run_bind_le elapsed_activeUsers_le fun _ => ?_
  refine elapsed_run_bind_le (n := 0) (elapsed_lift_le (elapsed_all_le fun t ht => ?_)) fun _ =>
    elapsed_run_bind_le (m := 0) (n := 0) (x := ExceptT.mk (pure _)) (Nat.le_refl 0) fun _ => Nat.le_refl 0
  obtain ⟨p, -, rfl⟩ := List.mem_map.1 ht
  exact elapsed_user_le _ _

/-- A lookup that overruns fails like any other. -/
theorem user_of_lt {position : Nat} {id : UserId} (h : r.limit.expiry < (r.settings.user position id).delay) :
    (r.user position id).run = ⟨.error (.settings id (.timedOut "settings lookup" r.limit)), r.limit.expiry,
      [.settings id]⟩ := by
  show Timed.call _ _ _ _ >>= _ = _
  rw [call_of_lt h]
  rfl

theorem followers_of_lt {id : UserId} (h : r.limit.expiry < (r.settings.followers id).delay) :
    (r.followers id).run = ⟨.error (.followers id (.timedOut "follower settings lookup" r.limit)),
      r.limit.expiry, [.followers id]⟩ := by
  show Timed.call _ _ _ _ >>= _ = _
  rw [call_of_lt h]
  rfl

theorem activeUsers_of_lt (h : r.limit.expiry < (r.settings.activeUsers r.recentLimit).delay) :
    r.activeUsers.run = ⟨.error (.activeUsers (.timedOut "active user lookup" r.limit)), r.limit.expiry,
      [.activeUsers r.recentLimit]⟩ := by
  show Timed.call _ _ _ _ >>= _ = _
  rw [call_of_lt h]
  rfl

/-- How many limits it takes to work out the recipients of an event. -/
def rounds : Event → Nat
  | .welcomeRoom .. => 2
  | _ => 1

/-- Working out the recipients of an event takes one limit at most, and two for those who welcome. -/
theorem elapsed_resolve_le (r : Resolver) (e : Event) :
    (r.resolve e).run.elapsed ≤ rounds e * r.limit.expiry := by
  cases e with
  | welcomeRoom user room =>
    rw [rounds, Nat.two_mul]
    exact elapsed_run_bind_le (n := 0) (elapsed_welcomers_le user) fun _ => Nat.le_refl 0
  | newFollower | roomInvite | followRecommendations =>
    show _ ≤ 1 * _
    rw [Nat.one_mul]
    exact elapsed_run_bind_le (n := 0) (elapsed_user_le _ _) fun _ => Nat.le_refl 0
  | roomCreation | roomJoin =>
    show _ ≤ 1 * _
    rw [Nat.one_mul]
    exact elapsed_run_bind_le (n := 0) (elapsed_followers_le _) fun _ => Nat.le_refl 0

end Resolver

namespace Pipeline

open Delivery (Settings.jobDeadline)

variable {settings : Settings} {w : World} {e : Event}

/-- The job of an event is ready, or the event has come to nothing, within two limits. -/
theorem elapsed_prepare_le (settings : Settings) (w : World) (e : Event) :
    (prepare settings w e).elapsed ≤ 2 * settings.delivery.limit.expiry := by
  refine Nat.max_le.2 ⟨?_, ?_⟩
  · exact Nat.le_trans (Registry.elapsed_build_le ..) (Nat.le_mul_of_pos_left _ (by decide))
  · refine Nat.le_trans (Resolver.elapsed_resolve_le ..) (Nat.mul_le_mul_right _ ?_)
    unfold Resolver.rounds
    split <;> decide

/-- What becomes of a payload: it is no event, which is noted at once, or what it comes to is settled by a
time at the latest. From then on its job can be submitted, or its failure noted, at any moment. -/
def Settles (settings : Settings) (s t : State) (payload : List UInt8) (deadline : Nat) : Prop :=
  Event.decode? payload = none ∧ t.failures = (s.arrivals, .malformed) :: s.failures ∨
  ∃ d, t.drafts = s.drafts ++ [d] ∧ d.number = s.arrivals ∧ d.due ≤ deadline ∧
    ∀ (u : State) position, u.drafts[position]? = some d → d.due ≤ u.now → ∀ v, ∃ u' : State,
      u.step settings v (.submit position) = some u' ∧
      match d.result with
      | .error outcome => u'.failures = (d.number, outcome) :: u.failures
      | .ok job => u'.pool = u.pool.submit ⟨d.number, job⟩

theorem settles (settings : Settings) (w : World) (s : State) (payload : List UInt8) :
    Settles settings s (s.arrive settings w payload) payload
      (s.now + 2 * settings.delivery.limit.expiry) := by
  cases he : Event.decode? payload with
  | none => exact .inl ⟨he, by rw [State.arrive, he]⟩
  | some e =>
    refine .inr ⟨⟨s.arrivals, s.now + (prepare settings w e).elapsed, (prepare settings w e).value⟩, ?_, rfl,
      Nat.add_le_add_left (elapsed_prepare_le settings w e) _, fun u position hu hdue v => ?_⟩
    · rw [State.arrive, he]
      rfl
    · simp only [State.step, hu, hdue, if_true]
      refine ⟨_, rfl, ?_⟩
      cases (prepare settings w e).value <;> rfl

open Delivery in
/-- Nothing takes longer than its calls may. -/
structure InTime (settings : Pipeline.Settings) (w : Pipeline.World) : Prop where
  /-- A notification is built within one limit. -/
  build : ∀ e, ((Registry.standard w.directories settings.delivery.limit).build e).run.elapsed ≤
    settings.delivery.limit.expiry
  /-- The recipients are worked out within one limit, or two if they are to welcome someone. -/
  resolve : ∀ e, ((resolver settings w).resolve e).run.elapsed ≤
    Resolver.rounds e * settings.delivery.limit.expiry
  /-- A message is dispatched, or comes to nothing, within two limits. -/
  handle : ∀ s payload, Settles settings s (s.arrive settings w payload) payload
    (s.now + 2 * settings.delivery.limit.expiry)
  /-- A worker that is not held up is done with a job within five limits for each round of recipients,
  unless a message is answered with a dead device. -/
  job : ∀ s₀ acts₀ s worker k job number acts t new, State.Run settings.delivery s₀ acts₀ s → s₀.New →
    s.workers[worker]? = some k → k.isBusy = false → 1 ≤ settings.delivery.concurrency →
    State.Prompt settings.delivery (s.assign worker job number) acts t →
    (∀ job number, .assign worker job number ∉ acts) → t.log = new ++ s.log →
    (∀ e ∈ job.errands number, Unharmed e new) →
    let deadline := s.clock.now +
      (job.targets.length + settings.delivery.concurrency - 1) / settings.delivery.concurrency *
        (5 * settings.delivery.limit.expiry)
    (t.busyAt worker = true → t.clock.now ≤ deadline) ∧
    (t.busyAt worker = false → ∃ before after u, acts = after ++ before ∧
      State.Prompt settings.delivery (s.assign worker job number) before u ∧
      State.Prompt settings.delivery u after t ∧ u.busyAt worker = false ∧ u.clock.now ≤ deadline) ∧
    ∀ v, ∃ later, State.Prompt settings.delivery t later (t.finish settings.delivery v) ∧
      (t.finish settings.delivery v).isBusy = false
  /-- Whatever a worker asks for is in the list of what is done, and if it overruns there is a failure in
  the list, exactly one limit later. -/
  overrun : ∀ s acts t, s.flights = [] → State.Prompt settings.delivery s acts t →
    (∀ h ∈ t.log, Deed.served? h = some h →
      h ∈ s.log ∨ ∃ start e w, (start, e, .noted w h) ∈ s.timed settings.delivery acts) ∧
    ∀ start e call, (start, e, call) ∈ s.timed settings.delivery acts → call.Overruns settings.delivery →
      t.clock.now ≤ start + settings.delivery.limit.expiry ∨
      ∃ d, (start + settings.delivery.limit.expiry, e, d) ∈ s.timed settings.delivery acts ∧
        Deed.TimesOut settings.delivery e call d
  /-- A call to the cache that overruns changes nothing. -/
  cache : ∀ {α : Type} (c : ClockedCache) operation reply (effect : Nat → Cache → α × Cache),
    settings.delivery.limit.expiry < reply.delay →
    c.perform settings.delivery.limit operation reply effect =
      (.error (.timedOut operation settings.delivery.limit),
        ⟨c.now + settings.delivery.limit.expiry, c.cache⟩)
  name : ∀ position user, settings.delivery.limit.expiry < (w.directories.users position user).delay →
    (Content.Lookups.name ⟨w.directories, settings.delivery.limit⟩ position user).run =
      ⟨.error (.lookup (.timedOut "display name lookup" settings.delivery.limit)),
        settings.delivery.limit.expiry, [.displayName user]⟩
  room : ∀ id, settings.delivery.limit.expiry < (w.directories.rooms id).delay →
    (Content.Lookups.room ⟨w.directories, settings.delivery.limit⟩ id).run =
      ⟨.error (.lookup (.timedOut "room lookup" settings.delivery.limit)),
        settings.delivery.limit.expiry, [.room id]⟩
  user : ∀ position id, settings.delivery.limit.expiry < (w.audience.user position id).delay →
    ((resolver settings w).user position id).run =
      ⟨.error (.settings id (.timedOut "settings lookup" settings.delivery.limit)),
        settings.delivery.limit.expiry, [.settings id]⟩
  followers : ∀ id, settings.delivery.limit.expiry < (w.audience.followers id).delay →
    ((resolver settings w).followers id).run =
      ⟨.error (.followers id (.timedOut "follower settings lookup" settings.delivery.limit)),
        settings.delivery.limit.expiry, [.followers id]⟩
  activeUsers : settings.delivery.limit.expiry < (w.audience.activeUsers settings.recentLimit).delay →
    (resolver settings w).activeUsers.run =
      ⟨.error (.activeUsers (.timedOut "active user lookup" settings.delivery.limit)),
        settings.delivery.limit.expiry, [.activeUsers settings.recentLimit]⟩

/-- Nothing takes longer than its calls may, whatever the collaborators do and however long they take for
it, even if they never answer. -/
theorem in_time (settings : Settings) (w : World) : InTime settings w where
  build e := Registry.elapsed_build_le w.directories settings.delivery.limit e
  resolve e := Resolver.elapsed_resolve_le (resolver settings w) e
  handle s payload := settles settings w s payload
  job s₀ acts₀ s worker k job number acts t new before fresh hk idle positive run sole log unharmed := by
    have hdeadline : settings.delivery.jobDeadline s.clock.now job.targets.length = s.clock.now +
        (job.targets.length + settings.delivery.concurrency - 1) / settings.delivery.concurrency *
          (5 * settings.delivery.limit.expiry) := by
      rw [Settings.jobDeadline, Delivery.Worker.room, Nat.max_eq_left positive, Delivery.Settings.span]
    have hassign : s.act settings.delivery (.assign worker job number) = some (s.assign worker job number) :=
      if_pos (List.getElem?_eq_some_iff.1 hk).1
    have hqueued : (s.assign worker job number).Queued := (before.queued fresh).act hassign
    refine ⟨fun hb => hdeadline ▸ run.now_le hk idle sole log unharmed hb,
      fun hb => hdeadline ▸ run.done_within hk idle sole new log unharmed hb, fun v => ?_⟩
    have hq : t.Queued := Trace.keeps (P := fun _ t => t.Queued) run hqueued fun _ _ _ _ q e =>
      q.act (Delivery.State.act_of_prompt e)
    obtain ⟨later, hrun, hb, -⟩ := Delivery.State.finish_prompt v hq
    exact ⟨later, hrun, hb⟩
  overrun s acts t hf run := ⟨fun _ hm hs => run.noted hm hs, fun _ _ _ hm ho => run.times_out hf hm ho⟩
  cache c operation reply effect h := by
    rw [ClockedCache.perform, Delivery.Reply.within_of_lt h]
    rfl
  name _ _ h := Content.Lookups.ask_of_lt h
  room _ h := Content.Lookups.ask_of_lt h
  user _ _ h := Resolver.user_of_lt h
  followers _ h := Resolver.followers_of_lt h
  activeUsers h := Resolver.activeUsers_of_lt h

/-- Two users of a job at a time, and nobody to greet. -/
def patient : Settings where
  delivery := ⟨⟨0, 0⟩, .ofMillis 10, 2, 5⟩
  greeters := []
  recentLimit := 5

/-- Nobody ever answers. -/
def silence : World where
  directories := ⟨fun _ _ => ⟨1000, .ok none⟩, fun _ => ⟨1000, .ok none⟩⟩
  audience := ⟨fun _ _ => ⟨1000, .error .notFound⟩, fun _ => ⟨1000, .ok []⟩, fun _ => ⟨1000, .ok []⟩⟩
  delivery := ⟨fun _ => ⟨1000, .ok []⟩, fun _ _ => ⟨1000, .ok ()⟩, ⟨1000, .ok ()⟩, ⟨1000, .ok ()⟩, 0⟩

/-- A room for three users to hear about. -/
def threeListeners : Delivery.Job where
  targets := [.withDefaults 1, .withDefaults 2, .withDefaults 3]
  notification := ⟨.newRoom, ⟨"", []⟩, ∅, none, none⟩

open Delivery in
/-- The lookups of all three users overrun. Latest first. -/
def unanswered : List Act :=
  [.move silence.delivery 0 (.turn 0), .pass 20, .move silence.delivery 0 (.turn 0),
    .move silence.delivery 0 .start, .move silence.delivery 0 (.turn 0),
    .move silence.delivery 0 (.turn 0), .pass 10, .move silence.delivery 0 (.turn 0),
    .move silence.delivery 0 (.turn 0), .move silence.delivery 0 .start, .move silence.delivery 0 .start]

/-- A worker to which nothing was assigned. -/
def oneWorker : Delivery.State where
  workers := [{ sink := .create 1 }]

/-- Two rounds of a job, none of which takes more than five limits. -/
theorem in_time_unanswered :
    ∃ t, Delivery.State.Prompt patient.delivery (oneWorker.assign 0 threeListeners 7) unanswered t ∧
      (∃ before u, Delivery.State.Prompt patient.delivery (oneWorker.assign 0 threeListeners 7) before u ∧
        u.busyAt 0 = false ∧ u.clock.now ≤ 100) ∧
      ((resolver patient silence).resolve (.welcomeRoom 1 "room")).run.elapsed ≤ 20 := by
  have h := in_time patient silence
  obtain ⟨t, ht, hb, hn⟩ : ∃ t, play (Delivery.State.prompt patient.delivery)
      (oneWorker.assign 0 threeListeners 7) unanswered = some t ∧ t.busyAt 0 = false ∧
        pick Delivery.Happening.reply? t.log = [] := ⟨_, rfl, by decide +kernel, by decide +kernel⟩
  have hnew : oneWorker.New := ⟨rfl, rfl, by simp [oneWorker, Cleanup.Sink.create, Channel.create]⟩
  -- No message was answered at all.
  have hu : ∀ e ∈ threeListeners.errands 7, Delivery.Unharmed e t.log := fun e _ index token hm => by
    have hreply : (token, index) ∈ pick Delivery.Happening.reply? t.log := mem_pick.2 ⟨_, hm, rfl⟩
    rw [hn] at hreply
    cases hreply
  obtain ⟨-, hdone, -⟩ := h.job oneWorker [] oneWorker 0 { sink := .create 1 } threeListeners 7 unanswered t
    t.log .refl hnew rfl rfl (by decide) (trace_iff.2 ht) (by simp [unanswered]) (List.append_nil _).symm hu
  obtain ⟨before, after, u, -, hbefore, -, hbu, hnow⟩ := hdone hb
  exact ⟨t, trace_iff.2 ht, ⟨before, u, hbefore, hbu, hnow⟩, h.resolve (.welcomeRoom 1 "room")⟩

end Pipeline

end Herald
