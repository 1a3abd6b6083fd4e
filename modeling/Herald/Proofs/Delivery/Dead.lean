import Herald.Proofs.Delivery.Step
import Mathlib.Data.List.Perm.Basic

/-!
# Tokens of dead devices

The gateway says of some devices that it no longer knows them. The tokens of these are handed to the
sink when the answers come in, in whichever order this is: what the sink holds and what is still to
be answered grows by what is sent to dead devices, and by nothing else.

* `Keeps`: how the tokens of a scene change; `Keeps.proceed` says so of a turn.
-/

namespace Herald

/-! ## Channels -/

namespace Channel

variable {α : Type} {c d : Channel α} {a : α} {t : Nat}

/-- What came in or waits outside. -/
def held (c : Channel α) : List α := c.items ++ c.waiting.map (·.2)

theorem held_send {ticket : Option Nat} (h : c.send? a = some (ticket, d)) :
    d.held.Perm (a :: c.held) := by
  unfold held
  rcases send?_cases h with ⟨-, hi, hw, -⟩ | ⟨-, hi, hw, -⟩
  · rw [hi, hw, List.append_assoc]
    exact List.perm_middle
  · rw [hi, hw, List.map_append, ← List.append_assoc]
    exact List.perm_append_singleton a _

theorem held_enter (h : c.enter? t = some (a, d)) : d.held.Perm c.held := by
  obtain ⟨-, hi, before, after, hw, hd, -⟩ := enter?_cases h
  unfold held
  rw [hi, hw, hd, List.append_assoc]
  refine List.Perm.append_left _ ?_
  simpa using List.perm_middle.symm

theorem held_receive (h : c.receive? = some (a, d)) : c.held = a :: d.held := by
  obtain ⟨hi, hw, -⟩ := receive?_cases h
  unfold held
  rw [hi, hw]
  rfl

end Channel

namespace Delivery

variable {settings : Settings} {w : World} {e : Errand} {index : Nat} {token : DeviceToken}
  {s t u : Scene} {before before' middle after after' : List DeviceToken}

/-! ## What is written down -/

/-- The gateway says in time that it no longer knows the device. -/
def isDead (limit : Limit) (r : Reply DeliveryError Unit) : Bool :=
  decide (r.delay ≤ limit.expiry) && match r.answer with
    | .error .unregistered => true
    | _ => false

/-- The token to which a message was sent, if its device is dead. -/
def dead? (settings : Settings) (w : World) : Happening → Option DeviceToken
  | .sent _ index token => if isDead settings.limit (w.gateway index token) then some token else none
  | _ => none

/-- The token whose removal was asked for. -/
def removal? : Happening → Option DeviceToken
  | .called (.removeDevice token) => some token
  | _ => none

/-! ## Sends -/

/-- The token of a send, if it will turn out to be dead. -/
def Send.doom (token : DeviceToken) : Send → List DeviceToken
  | flying ⟨_, .error .unregistered⟩ => [token]
  | _ => []

/-- The tokens that will turn out to be dead. -/
def Send.doomed (sends : List (DeviceToken × Send)) : List DeviceToken :=
  sends.flatMap fun p => p.2.doom p.1

/-- A send is over in time with the answer that the device is dead, or it comes to something else. -/
theorem Send.doom_start (limit : Limit) (token : DeviceToken) (now : Nat) (operation : String)
    (r : Reply DeliveryError Unit) : doom token (flying (.start now limit operation r)) =
      if isDead limit r then [token] else [] := by
  obtain ⟨delay, answer⟩ := r
  by_cases hd : delay ≤ limit.expiry
  · simp only [Pending.start, Reply.within, hd, if_true, isDead, decide_true, Bool.true_and]
    rcases answer with (_ | cause) | a <;> rfl
  · simp only [Pending.start, Reply.within, hd, if_false, isDead, decide_false, Bool.false_and]
    rfl

/-- The tokens that will turn out to be dead. -/
def Stage.doomed : Stage → List DeviceToken
  | sending sends => Send.doomed sends
  | _ => []

/-- What becomes of tokens when a scene changes: those in the queue, those outside and those that
will turn out to be dead grow by what is sent to dead devices. What is in the queue stays there, and
nothing is removed. -/
structure Keeps (settings : Settings) (w : World) (s t : Scene) (before after : List DeviceToken) :
    Prop where
  count : ∀ x, t.queue.held.count x + after.count x +
      (s.log.filterMap (dead? settings w)).count x =
    s.queue.held.count x + before.count x + (t.log.filterMap (dead? settings w)).count x
  items : s.queue.items <+: t.queue.items
  isOpen : t.queue.isClosed = false
  removals : t.log.filterMap removal? = s.log.filterMap removal?

namespace Keeps

theorem refl (ho : s.queue.isClosed = false) : Keeps settings w s s before before :=
  ⟨fun _ => rfl, List.prefix_refl _, ho, rfl⟩

theorem trans (h : Keeps settings w s t before middle) (h' : Keeps settings w t u middle after) :
    Keeps settings w s u before after where
  count x := by
    have h₁ := h.count x
    have h₂ := h'.count x
    omega
  items := h.items.trans h'.items
  isOpen := h'.isOpen
  removals := h'.removals.trans h.removals

/-- What happens to some tokens and then to others happens to all of them. -/
theorem append (h : Keeps settings w s t before after) (h' : Keeps settings w t u before' after') :
    Keeps settings w s u (before ++ before') (after ++ after') where
  count x := by
    have h₁ := h.count x
    have h₂ := h'.count x
    simp only [List.count_append]
    omega
  items := h.items.trans h'.items
  isOpen := h'.isOpen
  removals := h'.removals.trans h.removals

theorem note (ho : s.queue.isClosed = false) {h : Happening} (hd : dead? settings w h = none)
    (hr : removal? h = none) : Keeps settings w s (s.note h) before before := by
  refine ⟨fun x => ?_, List.prefix_refl _, ho, ?_⟩
  · simp [Scene.note, hd]
  · simp [Scene.note, hr]

theorem write (ho : s.queue.isClosed = false) (f : Cache → Cache) :
    Keeps settings w s (s.write f) before before :=
  ⟨fun _ => rfl, List.prefix_refl _, ho, rfl⟩

/-- A dead token is handed to the sink. -/
theorem park (settings : Settings) (w : World) (token : DeviceToken) (ho : s.queue.isClosed = false) :
    Keeps settings w s (Send.park token s).2 [token] ((Send.park token s).1.doom token) := by
  unfold Send.park
  split
  · next hn => exact absurd (Channel.send?_eq_none.1 hn) (by rw [ho]; decide)
  · next queue hs =>
    obtain ⟨-, hc, -⟩ := Channel.send?_keeps hs
    refine ⟨fun x => ?_, ?_, hc.trans ho, rfl⟩
    · have hp := (Channel.held_send hs).count_eq x
      simp only [Send.doom, List.count_cons, List.count_nil] at hp ⊢
      omega
    · rcases Channel.send?_cases hs with ⟨-, hi, -⟩ | ⟨hi, -⟩
      · exact ⟨_, hi.symm⟩
      · cases hi
  · next ticket queue hs =>
    obtain ⟨-, hc, -⟩ := Channel.send?_keeps hs
    refine ⟨fun x => ?_, ?_, hc.trans ho, rfl⟩
    · have hp := (Channel.held_send hs).count_eq x
      simp only [Send.doom, List.count_cons, List.count_nil] at hp ⊢
      omega
    · rcases Channel.send?_cases hs with ⟨hi, -⟩ | ⟨-, hi, -⟩
      · cases hi
      · exact ⟨[], by rw [List.append_nil]; exact hi.symm⟩

theorem send (settings : Settings) (w : World) (e : Errand) (index : Nat) (token : DeviceToken)
    (send : Send) (ho : s.queue.isClosed = false) :
    Keeps settings w s (send.proceed e index token s).2 (send.doom token)
      ((send.proceed e index token s).1.doom token) := by
  cases send with
  | flying call =>
    simp only [Send.proceed]
    split
    · have hn : Keeps settings w s (s.note (.answered e index token call.answer))
        ((Send.flying call).doom token) ((Send.flying call).doom token) := .note ho rfl rfl
      obtain ⟨due, answer⟩ := call
      refine hn.trans ?_
      cases answer with
      | ok a => exact refl ho
      | error cause =>
        cases cause with
        | unregistered => exact park settings w token ho
        | failed cause => exact refl ho
    · exact refl ho
  | parked ticket =>
    simp only [Send.proceed]
    split
    · next a queue he =>
      obtain ⟨-, hc, -⟩ := Channel.enter?_keeps he
      obtain ⟨-, hi, -⟩ := Channel.enter?_cases he
      refine ⟨fun x => ?_, ⟨_, hi.symm⟩, hc.trans ho, rfl⟩
      have hp := (Channel.held_enter he).count_eq x
      simp only [Send.doom]
      omega
    · exact refl ho
  | ended => exact refl ho

theorem proceedAll (settings : Settings) (w : World) (e : Errand) (index : Nat)
    (sends : List (DeviceToken × Send)) (ho : s.queue.isClosed = false) :
    Keeps settings w s (Send.proceedAll e index sends s).2 (Send.doomed sends)
      (Send.doomed (Send.proceedAll e index sends s).1) := by
  induction sends generalizing index s with
  | nil => exact refl ho
  | cons p sends ih =>
    have hs := Keeps.send settings w e index p.1 p.2 ho
    exact hs.append (ih (index + 1) hs.isOpen)

/-- A message is sent, to a device that is dead or not. -/
theorem sent (settings : Settings) (w : World) (e : Errand) (index : Nat) (token : DeviceToken)
    (ho : s.queue.isClosed = false) : Keeps settings w s (s.note (.sent e index token)) []
      (Send.doom token (.flying (.start s.now settings.limit pushName (w.gateway index token)))) := by
  have hd := Send.doom_start settings.limit token s.now pushName (w.gateway index token)
  refine ⟨fun x => ?_, List.prefix_refl _, ho, rfl⟩
  rw [hd]
  cases h : isDead settings.limit (w.gateway index token) with
  | false => simp [Scene.note, dead?, h]
  | true =>
    simp only [Scene.note, List.filterMap_cons, dead?, h, if_true, List.count_cons, List.count_nil]
    omega

theorem beginAll (settings : Settings) (w : World) (e : Errand) (index : Nat)
    (tokens : List DeviceToken) (ho : s.queue.isClosed = false) :
    Keeps settings w s (Send.beginAll settings w e index tokens s).2 []
      (Send.doomed (Send.beginAll settings w e index tokens s).1) := by
  induction tokens generalizing index s with
  | nil => exact refl ho
  | cons token tokens ih =>
    have hn := Keeps.sent settings w e index token ho
    have hs := hn.trans (Keeps.send settings w e index token _ hn.isOpen)
    exact hs.append (ih (index + 1) hs.isOpen)

/-! ## Turns -/

/-- The tokens of an outcome of a turn that will turn out to be dead. -/
def doomedOf (out : Option Stage × Scene) : List DeviceToken := out.1.elim [] Stage.doomed

theorem conclude (ho : s.queue.isClosed = false) :
    Keeps settings w s (conclude e s).2 [] (doomedOf (conclude e s)) := .note ho rfl rfl

theorem store (ho : s.queue.isClosed = false) :
    Keeps settings w s (store settings w e s).2 [] (doomedOf (store settings w e s)) := by
  unfold Delivery.store
  split
  · exact .note ho rfl rfl
  · exact conclude ho

theorem record (ho : s.queue.isClosed = false) :
    Keeps settings w s (record settings w e s).2 [] (doomedOf (record settings w e s)) := by
  unfold Delivery.record
  split
  · exact store ho
  · exact .note ho rfl rfl

theorem lookUp (ho : s.queue.isClosed = false) :
    Keeps settings w s (lookUp settings w e s).2 [] (doomedOf (lookUp settings w e s)) :=
  .note ho rfl rfl

theorem check (ho : s.queue.isClosed = false) :
    Keeps settings w s (check settings w e s).2 [] (doomedOf (check settings w e s)) := by
  unfold Delivery.check
  split
  · exact lookUp ho
  · exact .note ho rfl rfl

theorem doomed_of_ended {sends : List (DeviceToken × Send)} (h : sends.all (·.2.isEnded) = true) :
    Send.doomed sends = [] := List.flatMap_eq_nil_iff.2 fun p hp => by
  have he := List.all_eq_true.1 h p hp
  cases hs : p.2 with
  | ended => rfl
  | _ => rw [hs] at he; cases he

/-- A turn hands to the sink what has turned out to be dead. -/
theorem proceed (settings : Settings) (w : World) (e : Errand) (stage : Stage)
    (ho : s.queue.isClosed = false) :
    Keeps settings w s (proceed settings w e s stage).2 stage.doomed
      (doomedOf (proceed settings w e s stage)) := by
  cases stage with
  | fresh => exact check ho
  | checking window call =>
    have hn (marked : Except Failure Bool) :
        Keeps settings w s (s.note (.checked e marked)) [] [] := .note ho rfl rfl
    simp only [Delivery.proceed]
    split
    · exact (hn _).trans (lookUp ho)
    · exact (hn _).trans (conclude ho)
  | lookingUp call =>
    have hn : Keeps settings w s (s.note (.found e call.answer)) [] [] := .note ho rfl rfl
    simp only [Delivery.proceed]
    split
    · exact hn.trans (conclude ho)
    · exact hn.trans (beginAll settings w e 0 _ ho)
  | sending sends =>
    simp only [Delivery.proceed]
    split
    · next hall =>
      rw [Stage.doomed, doomed_of_ended hall]
      exact record ho
    · exact proceedAll settings w e 0 sends ho
  | recording window call =>
    simp only [Delivery.proceed]
    split
    · exact (write ho _).trans (store ho)
    · exact store ho
  | storing entry call =>
    simp only [Delivery.proceed]
    split
    · exact (write ho _).trans (conclude ho)
    · exact conclude ho

end Keeps

end Delivery

end Herald
