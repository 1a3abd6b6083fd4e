import Herald.Proofs.Delivery.Cleanup
import Herald.Proofs.Delivery.Sends
import Herald.Proofs.Gateway.Verdict

/-!
# Why devices are removed

A sink removes nothing of its own accord. What it holds came to it from a send that was answered, and what a
send is answered was fixed when the message was sent. So before each removal there is an answer that the
device is gone, and before that answer the message to which it was given.

* `Condemned`: what stands in the annals before a device may be removed.
* `Founded`, `Goes`: the sink holds nothing else; `Goes.proceed` says so of a turn.
* `Warranted`: nothing else is removed; `Warranted.live` keeps it.
* `unregistered_exact`: what the gateway's answers come to, and which devices are removed.
-/

namespace Herald

namespace Delivery

open Happening

/-! ## Annals -/

/-- What is written down, latest first, each with the world in which it is. -/
abbrev Annals := List (World × Happening)

variable {settings : Settings} {w : World} {l l' : Annals} {e : Errand} {index : Nat}
  {token : DeviceToken} {answer : Except DeliveryError Unit} {s t : Scene}

/-- A message was sent to the device at a position, and this is what it comes to within the limit. -/
def Asked (settings : Settings) (l : Annals) (e : Errand) (index : Nat) (token : DeviceToken)
    (answer : Except DeliveryError Unit) : Prop :=
  ∃ w, (w, .sent e index token) ∈ l ∧
    ((w.gateway index token).within settings.limit pushName).answer = answer

/-- A message was sent to a device, and then it was answered that the device is gone. -/
def Condemned (settings : Settings) (l : Annals) (token : DeviceToken) : Prop :=
  ∃ e index v w,
    [(v, .answered e index token (.error .unregistered)), (w, .sent e index token)].Sublist l ∧
    ((w.gateway index token).within settings.limit pushName).answer = .error .unregistered

theorem Asked.mono (h : Asked settings l e index token answer) (hl : l.Sublist l') :
    Asked settings l' e index token answer :=
  h.imp fun _ => And.imp_left (hl.subset ·)

theorem Condemned.mono (h : Condemned settings l token) (hl : l.Sublist l') :
    Condemned settings l' token := by
  obtain ⟨e, index, v, w, hs, ha⟩ := h
  exact ⟨e, index, v, w, hs.trans hl, ha⟩

theorem Asked.condemned (h : Asked settings l e index token (.error .unregistered)) (v : World) :
    Condemned settings ((v, .answered e index token (.error .unregistered)) :: l) token := by
  obtain ⟨w, hm, ha⟩ := h
  exact ⟨e, index, v, w, (List.singleton_sublist.2 hm).cons_cons _, ha⟩

/-- The annals, with what is written down in a scene. -/
def Scene.annals (w : World) (l : Annals) (s : Scene) : Annals := s.log.map (w, ·) ++ l

theorem Scene.annals_mono (h : s.log <:+ t.log) : (s.annals w l).Sublist (t.annals w l) :=
  (h.sublist.map _).append_right l

/-! ## Sends -/

/-- What is in a queue is condemned, and no removal is written down in a scene. -/
structure Founded (settings : Settings) (w : World) (l : Annals) (s : Scene) : Prop where
  held : ∀ token ∈ s.queue.held, Condemned settings (s.annals w l) token
  spared : ∀ h ∈ s.log, removal? h = none

theorem Founded.note (hs : Founded settings w l s) {h : Happening} (hr : removal? h = none) :
    Founded settings w l (s.note h) where
  held token ht := (hs.held token ht).mono (Scene.annals_mono (List.suffix_cons h s.log))
  spared := List.forall_mem_cons.2 ⟨hr, hs.spared⟩

theorem Founded.write (hs : Founded settings w l s) (f : Cache → Cache) :
    Founded settings w l (s.write f) := ⟨hs.held, hs.spared⟩

namespace Send

variable {sends : List (DeviceToken × Send)}

/-- Sends under way were asked for; `index` is the position of the first one. -/
def AllAsked (settings : Settings) (l : Annals) (e : Errand) :
    Nat → List (DeviceToken × Send) → Prop
  | _, [] => True
  | index, (token, send) :: rest =>
    (∀ call, send = .flying call → Asked settings l e index token call.answer) ∧
      AllAsked settings l e (index + 1) rest

theorem AllAsked.mono (h : AllAsked settings l e index sends) (hl : l.Sublist l') :
    AllAsked settings l' e index sends := by
  induction sends generalizing index with
  | nil => trivial
  | cons p sends ih => exact ⟨fun call hc => (h.1 call hc).mono hl, ih h.2⟩

/-- A condemned token is handed to the sink. -/
theorem founded_park (hs : Founded settings w l s) (hc : Condemned settings (s.annals w l) token) :
    Founded settings w l (park token s).2 := by
  have hsent {queue : Channel DeviceToken} {ticket : Option Nat}
      (h : s.queue.send? token = some (ticket, queue)) : Founded settings w l { s with queue } := by
    refine ⟨fun x hx => ?_, hs.spared⟩
    rcases List.mem_cons.1 ((Channel.held_send h).mem_iff.1 hx) with rfl | hx
    · exact hc
    · exact hs.held x hx
  unfold park
  split
  · exact hs
  · next h => exact hsent h
  · next h => exact hsent h

/-- A send that goes on hands over a token only when it is answered that the device is gone. -/
theorem founded_proceed (send : Send) (hs : Founded settings w l s)
    (ha : ∀ call, send = .flying call → Asked settings (s.annals w l) e index token call.answer) :
    Founded settings w l (send.proceed e index token s).2 ∧
      s.log <:+ (send.proceed e index token s).2.log ∧
      ∀ call, (send.proceed e index token s).1 = .flying call → send = .flying call := by
  cases send with
  | flying call =>
    simp only [proceed]
    split
    · have hn := hs.note (h := .answered e index token call.answer) rfl
      split
      · next hgone =>
        refine ⟨founded_park hn (hgone ▸ (hgone ▸ ha call rfl).condemned w), ?_, fun _ hc => ?_⟩
        · rw [log_park]
          exact List.suffix_cons ..
        · exact absurd (congrArg isFlying hc) (by rw [isFlying_park]; exact Bool.false_ne_true)
      · exact ⟨hn, List.suffix_cons .., fun _ hc => by cases hc⟩
    · exact ⟨hs, List.suffix_rfl, fun _ hc => hc⟩
  | parked ticket =>
    simp only [proceed]
    split
    · next h =>
      exact ⟨⟨fun x hx => hs.held x ((Channel.held_enter h).mem_iff.1 hx), hs.spared⟩,
        List.suffix_rfl, fun _ hc => by cases hc⟩
    · exact ⟨hs, List.suffix_rfl, fun _ hc => by cases hc⟩
  | ended => exact ⟨hs, List.suffix_rfl, fun _ hc => by cases hc⟩

theorem founded_proceedAll (hs : Founded settings w l s)
    (ha : AllAsked settings (s.annals w l) e index sends) :
    Founded settings w l (proceedAll e index sends s).2 ∧
      s.log <:+ (proceedAll e index sends s).2.log ∧
      AllAsked settings ((proceedAll e index sends s).2.annals w l) e index
        (proceedAll e index sends s).1 := by
  induction sends generalizing index s with
  | nil => exact ⟨hs, List.suffix_rfl, trivial⟩
  | cons p sends ih =>
    obtain ⟨token, send⟩ := p
    obtain ⟨hf, hl, hsame⟩ := founded_proceed send hs ha.1
    obtain ⟨hf', hl', ha'⟩ := ih hf (ha.2.mono (Scene.annals_mono hl))
    have hmono := Scene.annals_mono (w := w) (l := l) (hl.trans hl')
    exact ⟨hf', hl.trans hl', fun call hc => (ha.1 call (hsame call hc)).mono hmono, ha'⟩

theorem founded_beginAll (e : Errand) (index : Nat) (tokens : List DeviceToken) (hs : Founded settings w l s) :
    Founded settings w l (beginAll settings w e index tokens s).2 ∧
      s.log <:+ (beginAll settings w e index tokens s).2.log ∧
      AllAsked settings ((beginAll settings w e index tokens s).2.annals w l) e index
        (beginAll settings w e index tokens s).1 := by
  induction tokens generalizing index s with
  | nil => exact ⟨hs, List.suffix_rfl, trivial⟩
  | cons token tokens ih =>
    set call := Pending.start s.now settings.limit pushName (w.gateway index token)
    have hasked : Asked settings ((s.note (.sent e index token)).annals w l) e index token call.answer :=
      ⟨w, List.mem_cons_self .., rfl⟩
    obtain ⟨hf, hl, hsame⟩ := founded_proceed (.flying call)
      (hs.note (h := .sent e index token) rfl) fun c hc => by cases hc; exact hasked
    obtain ⟨hf', hl', ha'⟩ := ih (index + 1) hf
    have hlog := (List.suffix_cons _ s.log).trans (hl.trans hl')
    have hmono := Scene.annals_mono (w := w) (l := l) (hl.trans hl')
    refine ⟨hf', hlog, fun c hc => ?_, ha'⟩
    cases hsame c hc
    exact hasked.mono hmono

end Send

/-! ## Turns -/

/-- The sends of a stage that are under way were asked for. -/
def Stage.AllAsked (settings : Settings) (l : Annals) (e : Errand) : Stage → Prop
  | sending sends => Send.AllAsked settings l e 0 sends
  | _ => True

theorem Stage.AllAsked.mono {stage : Stage} (h : stage.AllAsked settings l e) (hl : l.Sublist l') :
    stage.AllAsked settings l' e := by
  cases stage with
  | sending sends => exact Send.AllAsked.mono h hl
  | _ => trivial

/-- What a turn leads to from a scene: the sink is handed condemned tokens only, and the next stage sends
what was asked for. -/
def Goes (settings : Settings) (w : World) (l : Annals) (e : Errand) (s : Scene)
    (out : Option Stage × Scene) : Prop :=
  Founded settings w l s → Founded settings w l out.2 ∧
    ∀ stage, out.1 = some stage → stage.AllAsked settings (out.2.annals w l) e

namespace Goes

variable {out : Option Stage × Scene} {stage : Stage}

theorem note {h : Happening} (hg : Goes settings w l e (s.note h) out) (hr : removal? h = none) :
    Goes settings w l e s out := fun hs => hg (hs.note hr)

theorem write {f : Cache → Cache} (hg : Goes settings w l e (s.write f) out) :
    Goes settings w l e s out := fun hs => hg (hs.write f)

theorem still {next : Option Stage} (h : next.any Stage.isSending = false) :
    Goes settings w l e s (next, s) := fun hs => ⟨hs, fun stage hn => by
  obtain rfl : next = some stage := hn
  cases stage with
  | sending sends => cases h
  | _ => trivial⟩

theorem conclude : Goes settings w l e s (conclude e s) := .note (.still rfl) rfl

theorem lookUp : Goes settings w l e s (lookUp settings w e s) := .note (.still rfl) rfl

theorem store : Goes settings w l e s (store settings w e s) := by
  unfold Delivery.store
  split
  · exact .note (.still rfl) rfl
  · exact .conclude

theorem record : Goes settings w l e s (record settings w e s) := by
  unfold Delivery.record
  split
  · exact .store
  · exact .note (.still rfl) rfl

theorem check : Goes settings w l e s (check settings w e s) := by
  unfold Delivery.check
  split
  · exact .lookUp
  · exact .note (.still rfl) rfl

theorem proceed (w : World) (s : Scene) (ha : stage.AllAsked settings (s.annals w l) e) :
    Goes settings w l e s (proceed settings w e s stage) := by
  cases stage with
  | fresh => exact .check
  | checking window call =>
    simp only [Delivery.proceed]
    split
    · exact .note .lookUp rfl
    · exact .note .conclude rfl
  | lookingUp call =>
    simp only [Delivery.proceed]
    split
    · exact .note .conclude rfl
    · next tokens _ =>
      refine .note (h := .found e call.answer) (fun hs => ?_) rfl
      obtain ⟨hf, -, hasked⟩ := Send.founded_beginAll e 0 tokens hs
      exact ⟨hf, fun stage hn => by cases hn; exact hasked⟩
  | sending sends =>
    simp only [Delivery.proceed]
    split
    · exact .record
    · intro hs
      obtain ⟨hf, -, hasked⟩ := Send.founded_proceedAll hs ha
      exact ⟨hf, fun stage hn => by cases hn; exact hasked⟩
  | recording window call =>
    simp only [Delivery.proceed]
    split
    · exact .write .store
    · exact .store
  | storing entry call =>
    simp only [Delivery.proceed]
    split
    · exact .write .conclude
    · exact .conclude

end Goes

/-! ## Runs -/

namespace State

variable {s t u : State} {acts : List Life} {m : Move} {worker : Nat}

/-- What is written down in an act. -/
def written (settings : Settings) (s : State) : Life → Annals
  | .act (.move w worker m) =>
    ((s.workers[worker]?.bind (·.step settings w s.clock m)).map (·.2.2.map (w, ·))).getD []
  | _ => []

/-- What is written down in the course of lives, latest first. -/
def annals (settings : Settings) (s : State) (acts : List Life) : Annals :=
  seen (live settings) (written settings) s acts

/-- What sinks hold is condemned, the sends under way were asked for, and nothing is removed that was not
condemned before. -/
structure Warranted (settings : Settings) (l : Annals) (s : State) : Prop where
  held : ∀ k ∈ s.workers, ∀ token ∈ k.sink.queue.held, Condemned settings l token
  asked : ∀ k ∈ s.workers, ∀ f ∈ k.flights, f.stage.AllAsked settings l f.errand
  removed : ∀ after w token before, l = after ++ (w, .called (.removeDevice token)) :: before →
    Condemned settings before token

namespace Warranted

/-- From workers that were just made. -/
theorem new (fresh : ∀ k ∈ s.workers, ∃ capacity, k = { sink := .create capacity }) :
    Warranted settings [] s where
  held k hk token ht := by
    obtain ⟨capacity, rfl⟩ := fresh k hk
    cases ht
  asked k hk f hf := by
    obtain ⟨capacity, rfl⟩ := fresh k hk
    cases hf
  removed after w token before h := by simp at h

/-- What is written down without a removal. -/
theorem removed_append (h : s.Warranted settings l) {new : Annals}
    (hn : ∀ a ∈ new, removal? a.2 = none) (after : Annals) (w : World)
    (token : DeviceToken) (before : Annals)
    (hl : new ++ l = after ++ (w, .called (.removeDevice token)) :: before) :
    Condemned settings before token := by
  rcases List.append_eq_append_iff.1 hl with ⟨rest, -, hr⟩ | ⟨rest, hr, hc⟩
  · exact h.removed rest w token before hr
  · cases rest with
    | nil => exact h.removed [] w token before hc.symm
    | cons x rest =>
      obtain ⟨rfl, -⟩ := List.cons.inj hc
      have hnone := hn (w, .called (.removeDevice token))
        (hr ▸ List.mem_append_right _ (List.mem_cons_self ..))
      cases hnone

/-- A worker changes, and something is written down. -/
theorem set {k : Worker} {new : Annals} (h : s.Warranted settings l)
    (hw : t.workers = s.workers.set worker k)
    (removed : ∀ after w token before, new ++ l = after ++ (w, .called (.removeDevice token)) :: before →
      Condemned settings before token)
    (held : ∀ token ∈ k.sink.queue.held, Condemned settings (new ++ l) token)
    (asked : ∀ f ∈ k.flights, f.stage.AllAsked settings (new ++ l) f.errand) :
    t.Warranted settings (new ++ l) where
  held k' hk' := by
    rw [hw] at hk'
    rcases List.mem_or_eq_of_mem_set hk' with hk' | rfl
    · exact fun token ht => (h.held k' hk' token ht).mono (List.sublist_append_right ..)
    · exact held
  asked k' hk' := by
    rw [hw] at hk'
    rcases List.mem_or_eq_of_mem_set hk' with hk' | rfl
    · exact fun f hf => (h.asked k' hk' f hf).mono (List.sublist_append_right ..)
    · exact asked
  removed := removed

/-- A move of a worker keeps what is warranted. -/
theorem move (h : s.Warranted settings l) {k : Worker}
    {r : Worker × ClockedCache × List Happening} (hk : s.workers[worker]? = some k)
    (hr : Move.Step settings w s.clock k m r) (log : List Happening) :
    Warranted settings (r.2.2.map (w, ·) ++ l) ⟨r.2.1, s.workers.set worker r.1, log⟩ := by
  have hmem := List.mem_of_getElem? hk
  have hheld := h.held k hmem
  have hasked := h.asked k hmem
  cases hr with
  | @start e rest he hlt =>
    have hl : l.Sublist ([(w, .began e)] ++ l) := List.sublist_append_right ..
    refine h.set rfl (h.removed_append (by simp [removal?])) (fun token ht => (hheld token ht).mono hl) fun f hf => ?_
    rcases List.mem_append.1 hf with hf | hf
    · exact (hasked f hf).mono hl
    · rw [List.mem_singleton.1 hf]
      trivial
  | @turn position f out flights hf hready ho hp =>
    have hfounded : Founded settings w l (k.scene s.clock) := ⟨hheld, fun _ ha => absurd ha List.not_mem_nil⟩
    obtain ⟨hout, hnext⟩ := Goes.proceed w (k.scene s.clock) (hasked f (List.mem_of_getElem? hf)) hfounded
    rw [ho] at hout hnext
    refine h.set rfl (h.removed_append fun a ha => ?_) hout.held fun g hg => ?_
    · obtain ⟨b, hb, rfl⟩ := List.mem_map.1 ha
      exact hout.spared b hb
    · rcases List.mem_append.1 (hp.mem_iff.1 hg) with hg | hg
      · obtain ⟨stage, hs, rfl⟩ := List.mem_map.1 hg
        exact hnext stage (Option.mem_toList.1 hs)
      · exact (hasked g (List.mem_of_mem_eraseIdx hg)).mono (List.sublist_append_right ..)
  | @take token sink ht =>
    obtain ⟨-, queue, hq, rfl⟩ := Cleanup.Sink.take?_cases ht
    have hcons := Channel.held_receive hq
    have hl : l.Sublist ([(w, .called (.removeDevice token))] ++ l) := List.sublist_append_right ..
    refine h.set rfl (fun after v token' before hb => ?_) (fun x hx => ?_) fun f hf => (hasked f hf).mono hl
    · cases after with
      | nil =>
        cases hb
        exact hheld token (hcons ▸ List.mem_cons_self ..)
      | cons _ after => exact h.removed after v token' before (List.cons.inj hb).2
    · exact (hheld x (hcons ▸ List.mem_cons_of_mem _ hx)).mono hl
  | @finish sink hs =>
    obtain ⟨p, -, -, rfl⟩ := Cleanup.Sink.finish?_cases hs
    exact h.set rfl h.removed hheld hasked

/-- Whatever happens to workers keeps what is warranted. -/
theorem live (h : s.Warranted settings l) {a : Life} (e : s.live settings a = some t) :
    t.Warranted settings (s.written settings a ++ l) := by
  cases a with
  | act a =>
    cases a with
    | assign worker job number =>
      obtain ⟨-, e⟩ := Option.ite_none_right_eq_some.1 e
      obtain ⟨hlt, e⟩ := Option.ite_none_right_eq_some.1 e
      cases e
      have hk := List.getElem?_eq_getElem hlt
      have hmem := List.getElem_mem hlt
      exact h.set (workers_assign hk job number) h.removed (h.held s.workers[worker] hmem)
        (h.asked s.workers[worker] hmem)
    | move w worker m =>
      obtain ⟨k, r, hk, hr, rfl⟩ := step_parts e
      have hw : s.written settings (.act (.move w worker m)) = r.2.2.map (w, ·) := by
        simp [written, hk, hr]
      rw [hw]
      exact h.move hk (.of_step hr) _
    | pass time =>
      cases e
      exact ⟨h.held, h.asked, h.removed⟩
  | drop worker =>
    simp only [State.live] at e
    split at e
    · cases e
    · next k hk =>
      obtain ⟨-, e⟩ := Option.ite_none_left_eq_some.1 e
      cases e
      have hmem := List.mem_of_getElem? hk
      have hset : (s.release worker).workers = s.workers.set worker { k with sink := k.sink.release } :=
        (List.modify_eq_set_getElem? ..).trans (by rw [hk]; rfl)
      refine h.set hset h.removed (fun token ht => h.held k hmem token ?_) (h.asked k hmem)
      exact List.mem_append_left _ (by simpa [Channel.held, Cleanup.Sink.release] using ht)

end Warranted

/-- What is warranted along a run from workers that were just made. -/
theorem warranted (run : Trace (live settings) s acts t)
    (fresh : ∀ k ∈ s.workers, ∃ capacity, k = { sink := .create capacity }) :
    t.Warranted settings (annals settings s acts) := by
  induction run with
  | refl => exact .new fresh
  | step a run e ih =>
    rw [annals, run.seen_cons]
    exact ih.live e

/-- What is written down in a world is written down in a move that was made in it. -/
theorem move_of_mem_annals {h : Happening} (hm : (w, h) ∈ annals settings s acts) :
    ∃ worker m, .act (.move w worker m) ∈ acts := by
  obtain ⟨t, a, ha, hm⟩ := exists_of_mem_seen hm
  cases a with
  | act a =>
    cases a with
    | move v worker m =>
      refine ⟨worker, m, ?_⟩
      cases hr : t.workers[worker]?.bind (·.step settings v t.clock m) with
      | none => simp [written, hr] at hm
      | some r =>
        obtain ⟨-, rfl⟩ : h ∈ r.2.2 ∧ v = w := by simpa [written, hr] using hm
        exact ha
    | assign | pass => cases hm
  | drop worker => cases hm

/-- The annals tell all that was written down. -/
theorem log_annals (run : Trace (live settings) s acts t) :
    t.log = (annals settings s acts).map (·.2) ++ s.log := by
  induction run with
  | refl => rfl
  | @step acts t u a run e ih =>
    rw [annals, run.seen_cons, List.map_append, List.append_assoc, ← annals, ← ih]
    cases a with
    | act a =>
      cases a with
      | assign worker job number =>
        obtain ⟨-, e⟩ := Option.ite_none_right_eq_some.1 e
        obtain ⟨-, e⟩ := Option.ite_none_right_eq_some.1 e
        cases e
        rfl
      | move w worker m =>
        obtain ⟨k, r, hk, hr, rfl⟩ := step_parts e
        simp [written, hk, hr, Function.comp_def]
      | pass time =>
        cases e
        rfl
    | drop worker =>
      simp only [live] at e
      split at e
      · cases e
      · obtain ⟨-, e⟩ := Option.ite_none_left_eq_some.1 e
        cases e
        rfl

end State

/-- A reply that the device is gone came within the limit. -/
theorem Reply.unregistered_of_within {limit : Limit} {operation : String} {r : Reply DeliveryError Unit}
    (h : (r.within limit operation).answer = .error .unregistered) : r.answer = .error .unregistered := by
  unfold Reply.within at h
  split at h
  · exact h
  · cases h

end Delivery

/-! ## Verdicts and removals -/

namespace Gateway

open Delivery

/-- The ways in which a message ends, by its answer. -/
theorem send_exact (account : Account) (transport : Http.Transport) (token : DeviceToken) (n : Notification) :
    (send transport account token n = .ok () ↔ ∃ r, Answers transport account token n r ∧ Accepts r) ∧
      (send transport account token n = .error .unregistered ↔
        ∃ r, Answers transport account token n r ∧ ¬ Accepts r ∧ SaysGone r) ∧
      ((∃ cause, send transport account token n = .error (.failed cause)) ↔
        ∀ r, Answers transport account token n r → ¬ Accepts r ∧ ¬ SaysGone r) := by
  rcases send_cases transport account token n with ⟨r, hr, hs⟩ | ⟨hnone, cause, hs⟩
  · have hex {P : Http.Response → Prop} : (∃ r, Answers transport account token n r ∧ P r) ↔ P r :=
      ⟨fun ⟨r', hr', hp⟩ => hr'.eq hr ▸ hp, fun hp => ⟨r, hr, hp⟩⟩
    have hall {P : Http.Response → Prop} : (∀ r, Answers transport account token n r → P r) ↔ P r :=
      ⟨fun h => h r hr, fun hp r' hr' => hr.eq hr' ▸ hp⟩
    rw [hs, hex, hex, hall]
    rcases verdict_cases r with ⟨ha, hv⟩ | ⟨ha, hg, hv⟩ | ⟨ha, hg, cause, hv⟩
    · simp [hv, ha]
    · simp [hv, ha, hg]
    · simp [hv, ha, hg]
  · simp [hs, hnone]

/-- What becomes of a message, whatever the gateway answers. It is accepted just if the status of the answer is
of the 2xx class. The device is gone just if the status is another one and the body holds a complaint
one detail of which has the code `UNREGISTERED`, or the status of which is `NOT_FOUND` where the answer has 404.
In all other cases the message fails: there is no answer, or it says neither.

So a sink that serves such messages removes a device only after such an answer, and the answer was given
to a message to that very device. This holds at each removal in the lives of any number of workers: jobs
are assigned, workers move, time passes and workers are dropped, in any order, and the gateway may answer each
message as it likes. -/
theorem unregistered_exact (account : Account) :
    (∀ transport token n,
      (send transport account token n = .ok () ↔
        ∃ r, Answers transport account token n r ∧ Accepts r) ∧
      (send transport account token n = .error .unregistered ↔
        ∃ r, Answers transport account token n r ∧ ¬ Accepts r ∧ SaysGone r) ∧
      ((∃ cause, send transport account token n = .error (.failed cause)) ↔
        ∀ r, Answers transport account token n r → ¬ Accepts r ∧ ¬ SaysGone r)) ∧
    ∀ settings s acts t, Trace (State.live settings) s acts t →
      (∀ k ∈ s.workers, ∃ capacity, k = { sink := .create capacity }) →
      (∀ w e index token, (w, .sent e index token) ∈ State.annals settings s acts →
        ∃ transport, (w.gateway index token).answer = send transport account token e.notification) →
      t.log = (State.annals settings s acts).map (·.2) ++ s.log ∧
      ∀ after u token before,
        State.annals settings s acts = after ++ (u, .called (.removeDevice token)) :: before →
        ∃ e index v w transport r,
          [(v, .answered e index token (.error .unregistered)), (w, .sent e index token)].Sublist before ∧
          (w.gateway index token).answer = send transport account token e.notification ∧
          Answers transport account token e.notification r ∧ ¬ Accepts r ∧ SaysGone r := by
  have hsend := send_exact account
  refine ⟨hsend, fun settings s acts t run fresh served => ⟨State.log_annals run, ?_⟩⟩
  intro after u token before h
  obtain ⟨e, index, v, w, hs, ha⟩ := (State.warranted run fresh).removed after u token before h
  have hsent : (w, .sent e index token) ∈ State.annals settings s acts := by
    rw [h]
    exact List.mem_append_right _ (List.mem_cons_of_mem _ (hs.subset (by simp)))
  obtain ⟨transport, hw⟩ := served w e index token hsent
  have hgone := hw.symm.trans (Reply.unregistered_of_within ha)
  obtain ⟨r, hr, hno, hsays⟩ := (hsend transport token e.notification).2.1.1 hgone
  exact ⟨e, index, v, w, transport, r, hs, hw, hr, hno, hsays⟩

/-- Where messages are sent. -/
def social : Account := ⟨"https://fcm.googleapis.com", "social", .ok "secret"⟩

/-- What is said of a device that does not exist. -/
def unknownDevice : Json := .object [("error", .object [("status", .text "NOT_FOUND")])]

/-- An answer that says so. -/
def farewell : Http.Response := { status := .notFound, body := some (Utf8.encode unknownDevice.compact) }

/-- Every user has one device, which the gateway no longer knows. -/
def abandoned : World where
  devices _ := .now ["a"]
  gateway _ _ := ⟨0, .error .unregistered⟩
  cache := .now ()
  removal := .now ()
  time := 0

/-- A message is sent to the device, and its removal is asked for. Latest first. -/
def lastMessage : List Life :=
  [.act (.move abandoned 0 .take), .act (.move abandoned 0 (.turn 0)),
    .act (.move abandoned 0 (.turn 0)), .act (.move abandoned 0 .start),
    .act (.assign 0 ⟨[.withDefaults 1], ⟨.newFollower, ⟨"", []⟩, ∅, none, none⟩⟩ 7)]

theorem saysGone_farewell : SaysGone farewell := by
  have ho : Complaint.Of unknownDevice.toSource ⟨some "NOT_FOUND", none, []⟩ :=
    Complaint.ofSource?_eq_some.1 (by decide +kernel)
  obtain ⟨rest, hrest⟩ : ∃ rest, unknownDevice.compact.toList = '\x7b' :: rest := ⟨_, rfl⟩
  have ht : bodyText farewell = unknownDevice.compact := marked_encode hrest (by decide)
  exact ⟨_, ht ▸ ho.told (Source.written_compact rfl), .inr ⟨rfl, rfl⟩⟩

theorem unregistered_exact_lastMessage :
    (∀ token n, send (fun _ => .ok farewell) social token n = .error .unregistered) ∧
    ∃ t, Trace (State.live ⟨⟨0, 0⟩, .ofMillis 10, 1, 5⟩) ⟨{}, [{ sink := .create 1 }], []⟩ lastMessage t ∧
      .called (.removeDevice "a") ∈ t.log ∧
      ∃ e index transport r, (abandoned, .sent e index "a") ∈
          State.annals ⟨⟨0, 0⟩, .ofMillis 10, 1, 5⟩ ⟨{}, [{ sink := .create 1 }], []⟩ lastMessage ∧
        Answers transport social "a" e.notification r ∧ SaysGone r := by
  have hexact := unregistered_exact social
  have hgone (token : DeviceToken) (n : Notification) :
      send (fun _ => .ok farewell) social token n = .error .unregistered := by
    have haddress : (Url.parse? social.address).isSome = true := by decide +kernel
    obtain ⟨request, hr⟩ := exists_request rfl haddress (by decide +kernel) (.ofNotification token n)
    exact (hexact.1 _ token n).2.1.2 ⟨farewell, ⟨request, hr, rfl⟩, by unfold Accepts; decide,
      saysGone_farewell⟩
  have hworld {w : World} {h : Happening} (hm : (w, h) ∈ State.annals ⟨⟨0, 0⟩, .ofMillis 10, 1, 5⟩
      ⟨{}, [{ sink := .create 1 }], []⟩ lastMessage) : w = abandoned := by
    obtain ⟨worker, m, hw⟩ := State.move_of_mem_annals hm
    simp only [lastMessage, List.mem_cons, Life.act.injEq, Act.move.injEq, reduceCtorEq,
      List.not_mem_nil, or_false] at hw
    tauto
  obtain ⟨t, ht⟩ : ∃ t, play (State.live ⟨⟨0, 0⟩, .ofMillis 10, 1, 5⟩)
      ⟨{}, [{ sink := .create 1 }], []⟩ lastMessage = some t := ⟨_, rfl⟩
  obtain ⟨hlog, hremoved⟩ := hexact.2 _ _ _ t (trace_iff.2 ht) (by simp) fun w e index token hm => by
    cases hworld hm
    exact ⟨fun _ => .ok farewell, (hgone token e.notification).symm⟩
  obtain ⟨e, index, v, w, transport, r, hs, -, hr, -, hsays⟩ := hremoved [] abandoned "a" _ rfl
  have hsent := List.mem_cons_of_mem (abandoned, .called (.removeDevice "a"))
    (hs.subset (List.mem_cons_of_mem _ (List.mem_singleton_self _)))
  refine ⟨hgone, t, trace_iff.2 ht, hlog ▸ List.mem_cons_self .., e, index, transport, r, ?_, hr, hsays⟩
  cases hworld hsent
  exact hsent

end Gateway

end Herald
