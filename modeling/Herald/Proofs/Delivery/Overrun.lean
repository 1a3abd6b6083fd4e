import Herald.Proofs.Delivery.Effects
import Herald.Proofs.Delivery.Prompt

/-!
# When calls end

A worker that is not held up takes note of each call at the very moment at which it ends: when the reply
comes, or at the expiry of the limit if it does not come in time. Then it notes a failure, like any other
of the same collaborator.

* `Deed.delay?`, `Deed.Ends`: how long a call takes, and what is done at its end.
* `Stage.Awaits`: a stage waits for the end of a call; `awaits_turn` and `awaits_new` say what a turn makes
  of the calls under way and of those that start.
* `State.Prompt.timely`: the ends of the calls of a run.
-/

namespace Herald.Delivery

open Happening

variable {settings : Settings} {w : World} {e : Errand} {stage : Stage} {call : Deed} {due ms : Nat}
  {s : Scene}

/-! ## Calls and their ends -/

namespace Deed

/-- How long a call takes. -/
def delay? (settings : Settings) : Deed → Option Nat
  | noted w (.called (.markExists _)) =>
    some (w.cache.within settings.limit Cooldown.checkName).delay
  | noted w (.called (.devices user)) => some ((w.devices user).within settings.limit lookupName).delay
  | noted w (.sent _ index token) =>
    some ((w.gateway index token).within settings.limit pushName).delay
  | noted w (.called (.setMark _ _)) => some (w.cache.within settings.limit Cooldown.recordName).delay
  | noted w (.called (.pushEntry _ _)) => some (w.cache.within settings.limit History.writeName).delay
  | _ => none

/-- What is done for an errand at the end of a call. -/
inductive Ends (settings : Settings) (e : Errand) : Deed → Deed → Prop
  | check {w w' : World} {key : String} {marked : Except Failure Bool} :
    marked.map (fun _ => ()) = (w.cache.within settings.limit Cooldown.checkName).answer →
    Ends settings e (.noted w (.called (.markExists key))) (.noted w' (.checked e marked))
  | lookup {w w' : World} {user : UserId} {answer : Except Failure (List DeviceToken)} :
    answer = ((w.devices user).within settings.limit lookupName).answer →
    Ends settings e (.noted w (.called (.devices user))) (.noted w' (.found e answer))
  | send {w w' : World} {index : Nat} {token : DeviceToken} {answer : Except DeliveryError Unit} :
    answer = ((w.gateway index token).within settings.limit pushName).answer →
    Ends settings e (.noted w (.sent e index token)) (.noted w' (.answered e index token answer))
  | record {w : World} {now ttl : Nat} {key : String} {answer : Except Failure Unit} :
    answer = (w.cache.within settings.limit Cooldown.recordName).answer →
    Ends settings e (.noted w (.called (.setMark key ttl))) (.landing now (.mark key (now + ttl)) answer)
  | store {w : World} {now cap : Nat} {key text : String} {answer : Except Failure Unit} :
    answer = (w.cache.within settings.limit History.writeName).answer →
    Ends settings e (.noted w (.called (.pushEntry key cap))) (.landing now (.push key text cap) answer)

/-- The reply to a call takes longer than the limit. -/
def Overruns (settings : Settings) : Deed → Prop
  | noted w (.called (.devices user)) => settings.limit.expiry < (w.devices user).delay
  | noted w (.sent _ index token) => settings.limit.expiry < (w.gateway index token).delay
  | noted w (.called (.markExists _)) | noted w (.called (.setMark _ _))
  | noted w (.called (.pushEntry _ _)) => settings.limit.expiry < w.cache.delay
  | _ => False

/-- What is done for an errand when a call has overrun. -/
inductive TimesOut (settings : Settings) (e : Errand) : Deed → Deed → Prop
  | check {w w' : World} {key : String} : TimesOut settings e (.noted w (.called (.markExists key)))
      (.noted w' (.checked e (.error (.timedOut Cooldown.checkName settings.limit))))
  | lookup {w w' : World} {user : UserId} : TimesOut settings e (.noted w (.called (.devices user)))
      (.noted w' (.found e (.error (.timedOut lookupName settings.limit))))
  | send {w w' : World} {index : Nat} {token : DeviceToken} :
    TimesOut settings e (.noted w (.sent e index token))
      (.noted w' (.answered e index token (.error (.failed (.timedOut pushName settings.limit)))))
  | record {w : World} {ttl : Nat} {key : String} :
    TimesOut settings e (.noted w (.called (.setMark key ttl)))
      (.missed (.timedOut Cooldown.recordName settings.limit))
  | store {w : World} {cap : Nat} {key : String} :
    TimesOut settings e (.noted w (.called (.pushEntry key cap)))
      (.missed (.timedOut History.writeName settings.limit))

end Deed

/-- A reply that does not come in time. -/
theorem Reply.within_of_lt {ε α : Type} [OfFailure ε] {limit : Limit} {r : Reply ε α}
    (h : limit.expiry < r.delay) (operation : String) :
    r.within limit operation = ⟨limit.expiry, .error (ofFailure (.timedOut operation limit))⟩ :=
  if_neg (Nat.not_le.2 h)

/-- A call that overruns takes as long as the limit. -/
theorem Deed.Overruns.delay (h : call.Overruns settings) : call.delay? settings = some settings.limit.expiry := by
  unfold Overruns at h
  split at h <;> first | exact congrArg (some ·.delay) (Reply.within_of_lt h _) | cases h

/-- A call that overruns ends with a failure. -/
theorem Deed.Ends.timesOut {d : Deed} (h : Deed.Ends settings e call d) (ho : call.Overruns settings) :
    Deed.TimesOut settings e call d := by
  cases h with
  | @check w w' key marked hm =>
    rw [Reply.within_of_lt ho] at hm
    cases marked with
    | ok a => cases hm
    | error cause => cases hm; exact .check
  | lookup hm => rw [hm, Reply.within_of_lt ho]; exact .lookup
  | send hm => rw [hm, Reply.within_of_lt ho]; exact .send
  | record hm => rw [hm, Reply.within_of_lt ho]; exact .record
  | store hm => rw [hm, Reply.within_of_lt ho]; exact .store

/-! ## Calls under way -/

/-- A stage of an errand waits for the end of a call. -/
inductive Stage.Awaits (settings : Settings) (e : Errand) : Stage → Deed → Nat → Prop
  | checking {w : World} {window : Cooldown.Window} {pending : Pending Failure Unit} :
    pending.answer = (w.cache.within settings.limit Cooldown.checkName).answer →
    Awaits settings e (.checking window pending) (.noted w (.called (.markExists window.key))) pending.due
  | lookingUp {w : World} {user : UserId} {pending : Pending Failure (List DeviceToken)} :
    pending.answer = ((w.devices user).within settings.limit lookupName).answer →
    Awaits settings e (.lookingUp pending) (.noted w (.called (.devices user))) pending.due
  | sending {w : World} {sends : List (DeviceToken × Send)} {index : Nat} {token : DeviceToken}
      {pending : Pending DeliveryError Unit} : sends[index]? = some (token, .flying pending) →
    pending.answer = ((w.gateway index token).within settings.limit pushName).answer →
    Awaits settings e (.sending sends) (.noted w (.sent e index token)) pending.due
  | recording {w : World} {window : Cooldown.Window} {pending : Pending Failure Unit} :
    pending.answer = (w.cache.within settings.limit Cooldown.recordName).answer →
    Awaits settings e (.recording window pending) (.noted w (.called (.setMark window.key window.ttl)))
      pending.due
  | storing {w : World} {entry : StoredNotification} {pending : Pending Failure Unit} :
    pending.answer = (w.cache.within settings.limit History.writeName).answer →
    Awaits settings e (.storing entry pending)
      (.noted w (.called (.pushEntry (History.key e.user) settings.historyCap))) pending.due

theorem Stage.Awaits.mem_dues (h : stage.Awaits settings e call due) : due ∈ stage.dues := by
  cases h with
  | checking | lookingUp | recording | storing => exact List.mem_singleton_self _
  | sending hi _ => exact List.mem_filterMap.2 ⟨_, List.mem_of_getElem? hi, rfl⟩

namespace Send

variable {index i : Nat} {token : DeviceToken} {pending : Pending DeliveryError Unit}
  {sends : List (DeviceToken × Send)} {tokens : List DeviceToken}

/-- A send is still under way, or it is answered. -/
theorem flying_proceed (e : Errand) (index : Nat) (token : DeviceToken) (s : Scene)
    (pending : Pending DeliveryError Unit) :
    ((flying pending).proceed e index token s).1 = .flying pending ∨
      pending.due ≤ s.now ∧
        .answered e index token pending.answer ∈ ((flying pending).proceed e index token s).2.log := by
  simp only [proceed]
  split
  · next ho =>
    refine .inr ⟨of_decide_eq_true ho, ?_⟩
    split
    · rw [log_park]; exact List.mem_cons_self ..
    · exact List.mem_cons_self ..
  · exact .inl rfl

theorem flying_proceedAll (e : Errand) (index : Nat) (s : Scene)
    (h : sends[i]? = some (token, .flying pending)) :
    (proceedAll e index sends s).1[i]? = some (token, .flying pending) ∨
      pending.due ≤ s.now ∧
        .answered e (index + i) token pending.answer ∈ (proceedAll e index sends s).2.log := by
  induction sends generalizing index s i with
  | nil => cases h
  | cons p sends ih =>
    obtain ⟨token', send⟩ := p
    simp only [proceedAll]
    cases i with
    | zero =>
      cases h
      obtain ⟨-, new, -, hl, -⟩ := log_proceedAll e (index + 1) sends
        ((flying pending).proceed e index token s).2
      rcases flying_proceed e index token s pending with hf | ⟨hdue, hm⟩
      · left
        rw [hf]
        rfl
      · exact .inr ⟨hdue, hl ▸ List.mem_append_right _ hm⟩
    | succ i =>
      rw [List.getElem?_cons_succ, ← now_proceed e index token' send s,
        show index + (i + 1) = index + 1 + i by omega]
      exact ih (index + 1) _ h

/-- Nothing but answers is written down when sends go on. -/
theorem mem_proceedAll {h : Happening} (hm : h ∈ (proceedAll e index sends s).2.log) :
    h ∈ s.log ∨ ∃ i token answer, h = .answered e i token answer := by
  induction sends generalizing index s with
  | nil => exact .inl hm
  | cons p sends ih =>
    rcases ih hm with hold | hans
    · rcases log_proceed e index p.1 s p.2 with ⟨hs, -⟩ | ⟨answer, hs, -⟩ <;> rw [hs] at hold
      · exact .inl hold
      · rcases List.mem_cons.1 hold with ha | hold
        · exact .inr ⟨index, p.1, answer, ha⟩
        · exact .inl hold
    · exact .inr hans

/-- The message to the device at a position is under way since it started, or it was answered at once. -/
def Launched (settings : Settings) (w : World) (e : Errand) (now first i : Nat) (token : DeviceToken)
    (out : List (DeviceToken × Send) × Scene) : Prop :=
  let pending := Pending.start now settings.limit pushName (w.gateway (first + i) token)
  out.1[i]? = some (token, .flying pending) ∨
    pending.due ≤ now ∧ .answered e (first + i) token pending.answer ∈ out.2.log

/-- Each message that starts is launched. -/
theorem mem_beginAll {h : Happening} (hm : h ∈ (beginAll settings w e index tokens s).2.log) :
    h ∈ s.log ∨ (∃ i token answer, h = .answered e i token answer) ∨
      ∃ i token, h = .sent e (index + i) token ∧
        Launched settings w e s.now index i token (beginAll settings w e index tokens s) := by
  induction tokens generalizing index s with
  | nil => exact .inl hm
  | cons token tokens ih =>
    set pending := Pending.start s.now settings.limit pushName (w.gateway index token)
    have hfirst := flying_proceed e index token (s.note (.sent e index token)) pending
    have hlog := log_proceed e index token (s.note (.sent e index token)) (flying pending)
    have hnow := now_proceed e index token (flying pending) (s.note (.sent e index token))
    have hn : beginAll settings w e index (token :: tokens) s =
        ((token, ((flying pending).proceed e index token (s.note (.sent e index token))).1) ::
          (beginAll settings w e (index + 1) tokens
            ((flying pending).proceed e index token (s.note (.sent e index token))).2).1,
          (beginAll settings w e (index + 1) tokens
            ((flying pending).proceed e index token (s.note (.sent e index token))).2).2) := rfl
    generalize (flying pending).proceed e index token (s.note (.sent e index token)) = r
      at hfirst hlog hnow hn
    obtain ⟨-, new, -, hl, -⟩ := log_beginAll settings w e (index + 1) tokens r.2
    rw [hn] at hm ⊢
    have hlaunched : Launched settings w e s.now index 0 token
        ((token, r.1) :: (beginAll settings w e (index + 1) tokens r.2).1,
          (beginAll settings w e (index + 1) tokens r.2).2) :=
      hfirst.imp (fun hf => by rw [hf]; rfl) fun ⟨hd, ha⟩ => ⟨hd, hl ▸ List.mem_append_right _ ha⟩
    rcases ih hm with hold | hans | ⟨i, token', rfl, hrest⟩
    · -- It is about the first message, or it was there before.
      have hcases : h = .sent e index token ∨ (∃ answer, h = .answered e index token answer) ∨ h ∈ s.log := by
        rcases hlog with ⟨hs, -⟩ | ⟨answer, hs, -⟩ <;> rw [hs] at hold
        · rcases List.mem_cons.1 hold with hs | hold
          · exact .inl hs
          · exact .inr (.inr hold)
        · rcases List.mem_cons.1 hold with ha | hold
          · exact .inr (.inl ⟨answer, ha⟩)
          · rcases List.mem_cons.1 hold with hs | hold
            · exact .inl hs
            · exact .inr (.inr hold)
      rcases hcases with rfl | ⟨answer, rfl⟩ | hold
      · exact .inr (.inr ⟨0, token, rfl, hlaunched⟩)
      · exact .inr (.inl ⟨index, token, answer, rfl⟩)
      · exact .inl hold
    · exact .inr (.inl hans)
    · refine .inr (.inr ⟨i + 1, token', by rw [show index + 1 + i = index + (i + 1) by omega], ?_⟩)
      rw [Launched, show index + 1 + i = index + (i + 1) by omega, hnow] at hrest
      exact hrest

end Send

/-! ## Turns -/

theorem mem_notes {log : List Happening} {d : Deed} : d ∈ notes w log ↔ ∃ h ∈ log, d = .noted w h := by
  simp [notes, eq_comm]

/-- What is written down of a call. -/
theorem note_of_delay {f : Flight} (hd : call ∈ f.deeds settings w s) (hm : call.delay? settings = some ms) :
    ∃ h ∈ (proceed settings w f.errand s f.stage).2.log, call = .noted w h := by
  simp only [Flight.deeds, List.mem_append] at hd
  rcases hd with (hd | hd) | hd
  · cases hs : f.stage <;> rw [hs] at hd <;> simp only [Stage.landing, List.not_mem_nil,
      List.mem_singleton] at hd
    all_goals
      rw [hd] at hm
      next pending => cases hp : pending.answer <;> rw [hp] at hm <;> cases hm
  · exact mem_notes.1 hd
  · obtain ⟨a, -, rfl⟩ := List.mem_map.1 hd
    cases hm

theorem mem_deeds_of_log {f : Flight} {h : Happening}
    (hm : h ∈ (proceed settings w f.errand s f.stage).2.log) : .noted w h ∈ f.deeds settings w s :=
  List.mem_append_left _ (List.mem_append_right _ (mem_notes.2 ⟨h, hm, rfl⟩))

/-- After a turn a stage waits for the call as before, or the call is over and has come to its end. -/
theorem awaits_turn {f : Flight} (hr : f.stage.isReady s = true)
    (h : f.stage.Awaits settings f.errand call due) :
    (∃ stage, (proceed settings w f.errand s f.stage).1 = some stage ∧
      stage.Awaits settings f.errand call due) ∨
    due ≤ s.now ∧ ∃ d ∈ f.deeds settings w s, Deed.Ends settings f.errand call d := by
  obtain ⟨e, stage⟩ := f
  cases h with
  | @checking w' window pending ha =>
    refine .inr ⟨of_decide_eq_true hr, _, mem_deeds_of_log (h := .checked e
      (pending.answer.map fun _ => s.clock.cache.isMarked s.now window.key)) ?_, .check ?_⟩
    · simp only [proceed]
      split <;> simp [lookUp, conclude, Scene.note]
    · rw [← ha]
      cases pending.answer <;> rfl
  | @lookingUp w' user pending ha =>
    refine .inr ⟨of_decide_eq_true hr, _, mem_deeds_of_log (h := .found e pending.answer) ?_, .lookup ha⟩
    simp only [proceed]
    split
    · simp [conclude, Scene.note]
    · obtain ⟨-, new, -, hl, -⟩ := Send.log_beginAll settings w e 0 _ (s.note (.found e pending.answer))
      rw [hl]
      exact List.mem_append_right _ (List.mem_cons_self ..)
  | @sending w' sends index token pending hi ha =>
    have hall : ¬ sends.all (·.2.isEnded) = true := fun hall => by
      have hended := List.all_eq_true.1 hall _ (List.mem_of_getElem? hi)
      cases hended
    have hout : proceed settings w e s (.sending sends) =
        (some (.sending (Send.proceedAll e 0 sends s).1), (Send.proceedAll e 0 sends s).2) := by
      simp only [proceed, if_neg hall]
    rcases Send.flying_proceedAll e 0 s hi with hf | ⟨hdue, hm⟩
    · exact .inl ⟨_, congrArg Prod.fst hout, .sending hf ha⟩
    · rw [Nat.zero_add] at hm
      exact .inr ⟨hdue, _, mem_deeds_of_log (hout ▸ hm), .send ha⟩
  | @recording w' window pending ha =>
    exact .inr ⟨of_decide_eq_true hr, _, List.mem_append_left _ (List.mem_append_left _
      (List.mem_singleton_self _)), .record ha⟩
  | @storing w' entry pending ha =>
    exact .inr ⟨of_decide_eq_true hr, _, List.mem_append_left _ (List.mem_append_left _
      (List.mem_singleton_self _)), .store ha⟩

/-- Each call that starts in a turn is awaited, or it takes no time and has come to its end. -/
def Starts (settings : Settings) (w : World) (e : Errand) (s : Scene) (out : Option Stage × Scene) : Prop :=
  ∀ h ∈ out.2.log, ∀ ms, (Deed.noted w h).delay? settings = some ms → h ∈ s.log ∨
    (∃ stage, out.1 = some stage ∧ stage.Awaits settings e (.noted w h) (s.now + ms)) ∨
    ms = 0 ∧ ∃ h' ∈ out.2.log, Deed.Ends settings e (.noted w h) (.noted w h')

namespace Starts

variable {out : Option Stage × Scene}

theorem note {h : Happening} (hn : (Deed.noted w h).delay? settings = none)
    (hs : Starts settings w e (s.note h) out) : Starts settings w e s out := by
  intro h' hm ms hd
  rcases hs h' hm ms hd with hold | hnew
  · rcases List.mem_cons.1 hold with rfl | hold
    · rw [hn] at hd; cases hd
    · exact .inl hold
  · exact .inr hnew

theorem write {f : Cache → Cache} (hs : Starts settings w e (s.write f) out) : Starts settings w e s out := hs

theorem conclude : Starts settings w e s (conclude e s) :=
  .note (h := .ended e) rfl fun _ hm _ _ => .inl hm

/-- A stage begins with a call. -/
theorem calls {c : Call}
    (h : ∀ ms, (Deed.noted w (.called c)).delay? settings = some ms →
      stage.Awaits settings e (.noted w (.called c)) (s.now + ms)) :
    Starts settings w e s (some stage, s.note (.called c)) := by
  intro h' hm ms hd
  rcases List.mem_cons.1 hm with rfl | hm
  · exact .inr (.inl ⟨stage, rfl, h ms hd⟩)
  · exact .inl hm

theorem lookUp : Starts settings w e s (lookUp settings w e s) :=
  .calls fun _ hd => by cases hd; exact .lookingUp rfl

theorem store : Starts settings w e s (store settings w e s) := by
  unfold Delivery.store
  split
  · exact .calls fun _ hd => by cases hd; exact .storing rfl
  · exact .conclude

theorem record : Starts settings w e s (record settings w e s) := by
  unfold Delivery.record
  split
  · exact .store
  · exact .calls fun _ hd => by cases hd; exact .recording rfl

theorem check : Starts settings w e s (check settings w e s) := by
  unfold Delivery.check
  split
  · exact .lookUp
  · exact .calls fun _ hd => by cases hd; exact .checking rfl

/-- The messages to all devices start. -/
theorem beginAll (tokens : List DeviceToken) :
    Starts settings w e s (some (.sending (Send.beginAll settings w e 0 tokens s).1),
      (Send.beginAll settings w e 0 tokens s).2) := by
  intro h hm ms hd
  rcases Send.mem_beginAll hm with hold | ⟨i, token, answer, rfl⟩ | ⟨i, token, rfl, hl⟩
  · exact .inl hold
  · cases hd
  · rw [Send.Launched] at hl
    rw [Nat.zero_add] at hd hl ⊢
    cases hd
    rcases hl with hf | ⟨hdue, ha⟩
    · exact .inr (.inl ⟨_, rfl, .sending hf rfl⟩)
    · exact .inr (.inr ⟨Nat.eq_zero_of_not_pos fun hpos => Nat.not_lt.2 hdue (Nat.lt_add_of_pos_right hpos),
        _, ha, .send rfl⟩)

theorem proceed (settings : Settings) (w : World) (e : Errand) (s : Scene) (stage : Stage) :
    Starts settings w e s (proceed settings w e s stage) := by
  cases stage with
  | fresh => exact .check
  | checking window pending =>
    simp only [Delivery.proceed]
    split
    · exact .note rfl .lookUp
    · exact .note rfl .conclude
  | lookingUp pending =>
    simp only [Delivery.proceed]
    split
    · exact .note rfl .conclude
    · exact .note rfl (.beginAll _)
  | sending sends =>
    simp only [Delivery.proceed]
    split
    · exact .record
    · intro h hm ms hd
      rcases Send.mem_proceedAll hm with hold | ⟨i, token, answer, rfl⟩
      · exact .inl hold
      · cases hd
  | recording window pending =>
    simp only [Delivery.proceed]
    split
    · exact .write .store
    · exact .store
  | storing entry pending =>
    simp only [Delivery.proceed]
    split
    · exact .write .conclude
    · exact .conclude

end Starts

/-- After a turn a stage waits for each call that has started, or the call took no time and has come to its
end. -/
theorem awaits_new {f : Flight} (hs : s.log = []) (hd : call ∈ f.deeds settings w s)
    (hm : call.delay? settings = some ms) :
    (∃ stage, (proceed settings w f.errand s f.stage).1 = some stage ∧
      stage.Awaits settings f.errand call (s.now + ms)) ∨
    ms = 0 ∧ ∃ d ∈ f.deeds settings w s, Deed.Ends settings f.errand call d := by
  obtain ⟨h, hh, rfl⟩ := note_of_delay hd hm
  rcases Starts.proceed settings w f.errand s f.stage h hh ms hm with hold | hawaits | ⟨hz, h', hh', hends⟩
  · rw [hs] at hold
    cases hold
  · exact .inl hawaits
  · exact .inr ⟨hz, _, mem_deeds_of_log hh', hends⟩

/-! ## Runs -/

/-- What an act does for errands, latest first, with the time. -/
def Act.timed (settings : Settings) (s : State) (a : Act) : List (Nat × Errand × Deed) :=
  (Act.deeds settings s a).map (s.clock.now, ·)

/-- A flight waits for the end of a call of its errand. -/
def State.Awaits (settings : Settings) (s : State) (e : Errand) (call : Deed) (due : Nat) : Prop :=
  ∃ f ∈ s.flights, f.errand = e ∧ f.stage.Awaits settings e call due

/-- Each call is under way, or it has come to its end when it was due. -/
def Timely (settings : Settings) (timed : List (Nat × Errand × Deed)) (s : State) : Prop :=
  ∀ start e call ms, (start, e, call) ∈ timed → call.delay? settings = some ms →
    s.Awaits settings e call (start + ms) ∨
      ∃ d, (start + ms, e, d) ∈ timed ∧ Deed.Ends settings e call d

namespace Timely

variable {timed : List (Nat × Errand × Deed)} {s t : State} {worker : Nat} {m : Move}

/-- Nothing is done for errands, and all flights stay. -/
theorem still (h : Timely settings timed s) (hf : t.flights.Perm s.flights) : Timely settings timed t := by
  intro start e call ms hm hd
  rcases h start e call ms hm hd with ⟨f, hf', he, ha⟩ | hend
  · exact .inl ⟨f, hf.mem_iff.2 hf', he, ha⟩
  · exact .inr hend

theorem move (h : Timely settings timed s) (o : s.OnTime) (hs : s.step settings w worker m = some t) :
    Timely settings (Act.timed settings s (.move w worker m) ++ timed) t := by
  have hnil (hm : ∀ position, m ≠ .turn position) : Act.timed settings s (.move w worker m) = [] := by
    rw [Act.timed, Act.deeds, Diary.deeds_nil hm]
    rfl
  cases State.Step.of_step hs with
  | start _ _ htf =>
    rw [hnil nofun]
    intro start e call ms hm hd
    rcases h start e call ms hm hd with ⟨f, hf, he, ha⟩ | hend
    · exact .inl ⟨f, htf.mem_iff.2 (List.mem_cons_of_mem _ hf), he, ha⟩
    · exact .inr hend
  | @turn _ position k f rest out hk hf hr ho _ hsf htf =>
    have hdeeds : ∀ d, (s.clock.now, f.errand, d) ∈ Act.timed settings s (.move w worker (.turn position)) ↔
        d ∈ f.deeds settings w (k.scene s.clock) := fun d => by
      rw [Act.timed, Act.deeds, Diary.deeds_turn hk hf hr]
      simp
    have hnew {call : Deed} {due : Nat} (ha : ∃ stage,
        (proceed settings w f.errand (k.scene s.clock) f.stage).1 = some stage ∧
          stage.Awaits settings f.errand call due) : t.Awaits settings f.errand call due := by
      obtain ⟨stage, hstage, ha⟩ := ha
      rw [ho] at hstage
      exact ⟨⟨f.errand, stage⟩, htf.mem_iff.2 (List.mem_append_left _ (by simp [hstage])), rfl, ha⟩
    intro start e call ms hm hd
    rcases List.mem_append.1 hm with hm | hm
    · -- The call has just started.
      obtain ⟨hcall, rfl, rfl⟩ : call ∈ f.deeds settings w (k.scene s.clock) ∧ start = s.clock.now ∧
          e = f.errand := by
        rw [Act.timed, Act.deeds, Diary.deeds_turn hk hf hr] at hm
        simpa [eq_comm] using hm
      rcases awaits_new rfl hcall hd with ha | ⟨rfl, d, hd, hends⟩
      · exact .inl (hnew ha)
      · exact .inr ⟨d, List.mem_append_left _ ((hdeeds d).2 hd), hends⟩
    · rcases h start e call ms hm hd with ⟨g, hg, rfl, ha⟩ | ⟨d, hd, hends⟩
      · rcases List.mem_cons.1 (hsf.mem_iff.1 hg) with rfl | hrest
        · rcases awaits_turn (w := w) hr ha with ha' | ⟨hdue, d, hd, hends⟩
          · exact .inl (hnew ha')
          · -- The call is over, and it was not overdue.
            have hnow : start + ms = s.clock.now := Nat.le_antisymm hdue (o g hg _ ha.mem_dues)
            exact .inr ⟨d, List.mem_append_left _ (hnow ▸ (hdeeds d).2 hd), hends⟩
        · exact .inl ⟨g, htf.mem_iff.2 (List.mem_append_right _ hrest), rfl, ha⟩
      · exact .inr ⟨d, List.mem_append_right _ hd, hends⟩
  | take _ htf =>
    rw [hnil nofun]
    exact h.still htf
  | finish _ htf =>
    rw [hnil nofun]
    exact h.still htf

end Timely

namespace State

variable {s t : State} {acts : List Act}

/-- What is done for errands in a run of workers that are not held up, latest first, with the time. -/
def timed (settings : Settings) (s : State) (acts : List Act) : List (Nat × Errand × Deed) :=
  seen (prompt settings) (Act.timed settings) s acts

/-- Along a run of workers that are not held up, each call comes to its end when it is due. -/
theorem Prompt.timely (run : Prompt settings s acts t) (hf : s.flights = []) :
    Timely settings (s.timed settings acts) t := by
  induction run with
  | refl => exact fun _ _ _ _ hm => absurd hm List.not_mem_nil
  | @step acts t u a run e h =>
    rw [timed, Trace.seen_cons run]
    cases a with
    | assign worker job number =>
      simp only [prompt, act, Option.ite_none_right_eq_some, Option.some.injEq] at e
      obtain ⟨hlt, rfl⟩ := e
      exact h.still (flights_assign hlt job number)
    | move w worker m => exact h.move (Prompt.onTime run (.of_idle hf)) e
    | pass time =>
      obtain ⟨-, -, rfl⟩ := prompt_pass e
      exact h.still .rfl

/-- Whatever is written down of errands was done for one of them. -/
theorem Prompt.noted (run : Prompt settings s acts t) {h : Happening} (hm : h ∈ t.log)
    (hs : Deed.served? h = some h) :
    h ∈ s.log ∨ ∃ start e w, (start, e, .noted w h) ∈ s.timed settings acts := by
  induction run with
  | refl => exact .inl hm
  | @step acts t u a run e ih =>
    rw [timed, Trace.seen_cons run]
    have hold (hm : h ∈ t.log) : h ∈ s.log ∨ ∃ start e w,
        (start, e, Deed.noted w h) ∈ Act.timed settings t a ++ seen (prompt settings) (Act.timed settings) s acts :=
      (ih hm).imp_right fun ⟨start, e, w, hd⟩ => ⟨start, e, w, List.mem_append_right _ hd⟩
    cases a with
    | assign worker job number =>
      simp only [prompt, act, Option.ite_none_right_eq_some, Option.some.injEq] at e
      obtain ⟨-, rfl⟩ := e
      exact hold hm
    | move w worker m =>
      cases State.Step.of_step e with
      | start _ _ _ _ hlog | take _ _ _ hlog =>
        rw [hlog] at hm
        rcases List.mem_cons.1 hm with rfl | hm
        · cases hs
        · exact hold hm
      | @turn _ position k f rest out hk hf hr ho _ _ _ _ hlog =>
        rw [hlog] at hm
        rcases List.mem_append.1 hm with hm | hm
        · rw [← ho] at hm
          refine .inr ⟨t.clock.now, f.errand, w, List.mem_append_left _ ?_⟩
          rw [Act.timed, Act.deeds, Diary.deeds_turn hk hf hr]
          simpa using mem_deeds_of_log hm
        · exact hold hm
      | finish _ _ _ hlog => exact hold (hlog ▸ hm)
    | pass time =>
      obtain ⟨-, -, rfl⟩ := prompt_pass e
      exact hold hm

/-- A call that overruns ends with a failure, exactly when the limit is over. -/
theorem Prompt.times_out (run : Prompt settings s acts t) (hf : s.flights = []) {start : Nat} {e : Errand}
    {call : Deed} (hm : (start, e, call) ∈ s.timed settings acts) (ho : call.Overruns settings) :
    t.clock.now ≤ start + settings.limit.expiry ∨
      ∃ d, (start + settings.limit.expiry, e, d) ∈ s.timed settings acts ∧
        Deed.TimesOut settings e call d := by
  rcases run.timely hf start e call _ hm ho.delay with ⟨f, hm, -, ha⟩ | ⟨d, hd, hends⟩
  · exact .inl (run.onTime (.of_idle hf) f hm _ ha.mem_dues)
  · exact .inr ⟨d, hd, hends.timesOut ho⟩

end State

end Herald.Delivery
