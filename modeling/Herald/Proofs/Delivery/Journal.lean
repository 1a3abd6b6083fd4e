import Herald.Proofs.Delivery.Chronicle

/-!
# The journal of an errand

An errand asks the cache for its cooldown, looks up the devices, sends its messages, records the
cooldown and keeps the history, one after the other. Its journal holds what was done for it: what was
written down, which attempts came to their end, and which changes the cache made.

* `Flight.deeds`: what a turn of a flight does.
* `Journal.Done`: the journals of errands that are over, and `Journal.Told`, of those at a stage.
* `proceed_tells`: a turn leads to a journal that belongs to the next stage.
-/

namespace Herald.Delivery

open Happening

/-! ## Deeds -/

/-- A change of the cache. -/
inductive Change where
  | mark (key : String) (ends : Nat)
  | push (key text : String) (cap : Nat)

/-- What a change makes of the cache. -/
def Change.apply : Change → Cache → Cache
  | mark key ends, c => c.setMark key ends
  | push key text cap, c => c.push key text cap

/-- Something that is done for an errand. -/
inductive Deed where
  /-- Something is written down; a call that starts is replied to as the world has it. -/
  | noted (w : World) (h : Happening)
  /-- The attempt at the device at a position is over: the message was answered, and the token of a
  dead device was handed over. -/
  | settled (index : Nat) (token : DeviceToken)
  /-- The cache makes a change for which it was asked, at a time. -/
  | changed (now : Nat) (x : Change)
  /-- The cache was asked for a change, and makes none. -/
  | missed (cause : Failure)

namespace Deed

/-- What the cache makes of a change at the end of a call, by how the call ends. -/
def landing (now : Nat) (x : Change) : Except Failure Unit → Deed
  | .ok _ => changed now x
  | .error cause => missed cause

def effect : Deed → Cache → Cache
  | changed _ x => x.apply
  | _ => id

/-- What is written down, other than that an errand begins and what sinks ask for. -/
def served? : Happening → Option Happening
  | .began _ | .called (.removeDevice _) => none
  | h => some h

def note? : Deed → Option Happening
  | noted _ h => served? h
  | _ => none

/-- The device to which a message was sent, with its position in the list of devices. -/
def target? : Deed → Option (DeviceToken × Nat)
  | noted _ h => h.target?
  | _ => none

/-- The device whose message was answered, with its position in the list of devices. -/
def reply? : Deed → Option (DeviceToken × Nat)
  | noted _ h => h.reply?
  | _ => none

/-- The device at which the attempt is over, with its position in the list of devices. -/
def settled? : Deed → Option (DeviceToken × Nat)
  | settled index token => some (token, index)
  | _ => none

/-- It is about a message of an errand. -/
def IsSend (e : Errand) : Deed → Prop
  | noted _ (.sent e' _ _) | noted _ (.answered e' _ _ _) => e' = e
  | settled _ _ => True
  | _ => False

/-- What is changed for an errand is its cooldown, or the history of its user. -/
def Owned (settings : Settings) (e : Errand) : Deed → Prop
  | changed _ (.mark key _) => ∃ window, e.window? settings.cooldowns = some window ∧ key = window.key
  | changed _ (.push key _ _) => key = History.key e.user
  | _ => True

end Deed

/-- What deeds make of a cache; the deeds are given latest first. -/
def replay (deeds : List Deed) (c : Cache) : Cache := deeds.foldr Deed.effect c

/-! ### What a turn does -/

/-- The devices at which the attempts are over; `index` is the position of the first one. -/
def Send.past (index : Nat) : List (DeviceToken × Send) → List (DeviceToken × Nat)
  | [] => []
  | (token, send) :: rest => (if send.isEnded then [(token, index)] else []) ++ past (index + 1) rest

namespace Stage

/-- The devices at which the attempts are over. -/
def past : Stage → List (DeviceToken × Nat)
  | sending sends => Send.past 0 sends
  | _ => []

/-- What the cache makes of a change for which it was asked in a stage. -/
def landing (settings : Settings) (e : Errand) (now : Nat) : Stage → List Deed
  | recording window call => [.landing now (.mark window.key (now + window.ttl)) call.answer]
  | storing entry call =>
    [.landing now (.push (History.key e.user) entry.encode settings.historyCap) call.answer]
  | _ => []

end Stage

/-- What is written down, given latest first. -/
def notes (w : World) (log : List Happening) : List Deed := (log.map (.noted w)).reverse

/-- The attempts that come to their end when an errand comes to another stage. -/
def settlements (before : List (DeviceToken × Nat)) (next : Option Stage) : List Deed :=
  (((next.map Stage.past).getD []).filter (· ∉ before)).map fun a => .settled a.2 a.1

/-- What a turn of a flight does, in order. -/
def Flight.deeds (settings : Settings) (w : World) (s : Scene) (f : Flight) : List Deed :=
  let out := proceed settings w f.errand s f.stage
  f.stage.landing settings f.errand s.now ++ notes w out.2.log ++ settlements f.stage.past out.1

/-- What a move of a worker does for errands, latest first. -/
def Worker.deeds (settings : Settings) (w : World) (clock : ClockedCache) (k : Worker) (m : Move) :
    List (Errand × Deed) :=
  match k.step settings w clock m, m with
  | some _, .turn position => k.flights[position]?.toList.flatMap fun f =>
      ((f.deeds settings w (k.scene clock)).map (f.errand, ·)).reverse
  | _, _ => []

/-- What a move of the worker at a position does for errands, latest first. -/
def State.deeds (settings : Settings) (w : World) (s : State) (worker : Nat) (m : Move) :
    List (Errand × Deed) :=
  s.workers[worker]?.toList.flatMap (·.deeds settings w s.clock m)

/-- What an act does for errands, latest first. -/
def Act.deeds (settings : Settings) (s : State) : Act → List (Errand × Deed)
  | .move w worker m => s.deeds settings w worker m
  | _ => []

/-! ## Journals -/

namespace Journal

/-- What was done for the errand with a key, in order. -/
def of (key : Nat × Nat) (deeds : List (Errand × Deed)) : List Deed :=
  pick (fun d => if d.1.key = key then some d.2 else none) deeds

section

variable {e : Errand}

/-- What is done for the errand comes last in its journal. -/
theorem of_own (e : Errand) (new : List Deed) (deeds : List (Errand × Deed)) :
    of e.key ((new.map (e, ·)).reverse ++ deeds) = of e.key deeds ++ new := by
  rw [of, pick_append]
  simp [pick, of, List.filterMap_map]

/-- What is done for another errand is not in the journal. -/
theorem of_others {key : Nat × Nat} (h : e.key ≠ key) (new : List Deed)
    (deeds : List (Errand × Deed)) :
    of key ((new.map (e, ·)).reverse ++ deeds) = of key deeds := by
  have hnone : of key (new.map (e, ·)).reverse = [] := pick_eq_nil fun d hd => by
    obtain ⟨d, -, rfl⟩ := List.mem_map.1 (List.mem_reverse.1 hd)
    exact if_neg h
  rw [of] at hnone ⊢
  rw [pick_append, hnone, List.append_nil]
  rfl

end

section

variable (settings : Settings) (e : Errand)

/-- The cache is asked for a cooldown, if there is one that applies, and it lets the errand go on or
not. -/
inductive Checks : Bool → List Deed → Prop
  | unlimited : e.window? settings.cooldowns = none → Checks true []
  | asked {window : Cooldown.Window} {w w' : World} {marked : Except Failure Bool} :
    e.window? settings.cooldowns = some window →
    marked.map (fun _ => ()) = (w.cache.within settings.limit Cooldown.checkName).answer →
    Checks (Cooldown.allows marked)
      [.noted w (.called (.markExists window.key)), .noted w' (.checked e marked)]

/-- The devices are looked up, which comes to an answer within the limit. -/
def Looks (answer : Except Failure (List DeviceToken)) (l : List Deed) : Prop :=
  ∃ w w', answer = ((w.devices e.user).within settings.limit lookupName).answer ∧
    l = [.noted w (.called (.devices e.user)), .noted w' (.found e answer)]

/-- A message is sent to each of some devices; `replies` have been answered, and the attempts at
`settled` are over. -/
structure Sends (tokens : List DeviceToken) (replies settled : List (DeviceToken × Nat))
    (l : List Deed) : Prop where
  own : ∀ d ∈ l, d.IsSend e
  attempts : l.filterMap Deed.target? = tokens.zipIdx
  replies : (l.filterMap Deed.reply?).Perm replies
  settled : (l.filterMap Deed.settled?).Perm settled

/-- The errand was let go on, its devices were looked up, and the attempts at all of them are over. -/
inductive Serves : List Deed → Prop
  | mk {tokens : List DeviceToken} {check look sends : List Deed} : Checks settings e true check →
    Looks settings e (.ok tokens) look → Sends e tokens tokens.zipIdx tokens.zipIdx sends →
    Serves (check ++ look ++ sends)

/-- The cooldown is recorded once, if there is one that applies. -/
inductive Records : List Deed → Prop
  | unlimited : e.window? settings.cooldowns = none → Records []
  | asked {window : Cooldown.Window} (w : World) (now : Nat) :
    e.window? settings.cooldowns = some window →
    Records [.noted w (.called (.setMark window.key window.ttl)),
      .landing now (.mark window.key (now + window.ttl))
        (w.cache.within settings.limit Cooldown.recordName).answer]

/-- One entry is kept, if the notification belongs in the history. -/
inductive Stores : List Deed → Prop
  | passing : e.notification.category.isStorable = false → Stores []
  | asked (w : World) (now : Nat) : e.notification.category.isStorable = true →
    Stores [.noted w (.called (.pushEntry (History.key e.user) settings.historyCap)),
      .landing now (.push (History.key e.user) (e.entry w.time).encode settings.historyCap)
        (w.cache.within settings.limit History.writeName).answer]

/-- What was done for an errand that is over. -/
inductive Done : List Deed → Prop
  | suppressed {check : List Deed} (w : World) : Checks settings e false check →
    Done (check ++ [.noted w (.ended e)])
  | unreachable {check look : List Deed} {cause : Failure} (w : World) : Checks settings e true check →
    Looks settings e (.error cause) look → Done (check ++ look ++ [.noted w (.ended e)])
  | served {serve record store : List Deed} (w : World) : Serves settings e serve →
    Records settings e record → Stores settings e store →
    Done (serve ++ record ++ store ++ [.noted w (.ended e)])

/-- What was done for an errand at a stage. -/
inductive Told : List Deed → Stage → Prop
  | fresh : Told [] .fresh
  | checking {window : Cooldown.Window} {call : Pending Failure Unit} (w : World) :
    e.window? settings.cooldowns = some window →
    call.answer = (w.cache.within settings.limit Cooldown.checkName).answer →
    Told [.noted w (.called (.markExists window.key))] (.checking window call)
  | lookingUp {check : List Deed} {call : Pending Failure (List DeviceToken)} (w : World) :
    Checks settings e true check →
    call.answer = ((w.devices e.user).within settings.limit lookupName).answer →
    Told (check ++ [.noted w (.called (.devices e.user))]) (.lookingUp call)
  | sending {check look l : List Deed} {sends : List (DeviceToken × Send)} :
    Checks settings e true check → Looks settings e (.ok (sends.map (·.1))) look →
    Sends e (sends.map (·.1)) (Send.landed 0 sends) (Send.past 0 sends) l →
    Told (check ++ look ++ l) (.sending sends)
  | recording {serve : List Deed} {window : Cooldown.Window} {call : Pending Failure Unit} (w : World) :
    Serves settings e serve → e.window? settings.cooldowns = some window →
    call.answer = (w.cache.within settings.limit Cooldown.recordName).answer →
    Told (serve ++ [.noted w (.called (.setMark window.key window.ttl))]) (.recording window call)
  | storing {serve record : List Deed} {call : Pending Failure Unit} (w : World) :
    Serves settings e serve → Records settings e record →
    e.notification.category.isStorable = true →
    call.answer = (w.cache.within settings.limit History.writeName).answer →
    Told (serve ++ record ++ [.noted w (.called (.pushEntry (History.key e.user) settings.historyCap))])
      (.storing (e.entry w.time) call)

/-- What was done for an errand at a stage, or for one that is over. -/
def Story (l : List Deed) : Option Stage → Prop
  | some stage => Told settings e l stage
  | none => Done settings e l

end

end Journal

/-! ## Turns -/

section

variable {settings : Settings} {w : World} {e : Errand} {s : Scene} {stage : Stage}
  {before : List (DeviceToken × Nat)} {out : Option Stage × Scene} {l : List Deed}

theorem notes_append (w : World) (new log : List Happening) :
    notes w (new ++ log) = notes w log ++ notes w new := by
  simp [notes]

theorem filterMap_notes {α : Type} {f : Deed → Option α} {g : Happening → Option α}
    (h : ∀ a, f (.noted w a) = g a) (log : List Happening) :
    (notes w log).filterMap f = pick g log := by
  rw [notes, List.filterMap_reverse, List.filterMap_map]
  exact congrArg (List.reverse <| log.filterMap ·) (funext h)

theorem settlements_nil (h : (out.1.map Stage.past).getD [] = []) : settlements before out.1 = [] := by
  rw [settlements, h]; rfl

/-! ### Attempts -/

namespace Send

variable {index : Nat} {sends : List (DeviceToken × Send)}

theorem past_of_ended (h : sends.all (·.2.isEnded) = true) :
    past index sends = (sends.map (·.1)).zipIdx index := by
  induction sends generalizing index with
  | nil => rfl
  | cons p sends ih =>
    obtain ⟨hs, ht⟩ := Bool.and_eq_true_iff.1 (List.all_cons ▸ h)
    simp [past, hs, ih ht, List.zipIdx_cons]

theorem past_sublist : (past index sends).Sublist ((sends.map (·.1)).zipIdx index) := by
  induction sends generalizing index with
  | nil => exact .slnil
  | cons p sends ih =>
    rw [past, List.map_cons, List.zipIdx_cons]
    split
    · exact ih.cons_cons _
    · exact ih.cons _

theorem nodup_past : (past index sends).Nodup := by
  refine past_sublist.nodup (.of_map Prod.snd ?_)
  rw [List.zipIdx_map_snd]
  exact List.nodup_range'

/-- An attempt that is over stays over. -/
theorem past_subset (e : Errand) (s : Scene) : past index sends ⊆ past index (proceedAll e index sends s).1 := by
  induction sends generalizing index s with
  | nil => exact List.nil_subset _
  | cons p sends ih =>
    obtain ⟨token, send⟩ := p
    refine List.append_subset.2 ⟨?_, fun a ha => List.mem_append_right _ (ih _ ha)⟩
    cases send with
    | ended => exact fun a ha => List.mem_append_left _ ha
    | flying | parked => exact List.nil_subset _

end Send

/-- What was settled before and what comes to its end make up what is settled. -/
theorem settlements_perm {settled : List (DeviceToken × Nat)} (hb : before.Nodup)
    (hs : stage.past.Nodup) (hsub : before ⊆ stage.past) (hp : settled.Perm before) :
    (settled ++ (settlements before (some stage)).filterMap Deed.settled?).Perm stage.past := by
  have hnew : (settlements before (some stage)).filterMap Deed.settled? =
      stage.past.filter (· ∉ before) := by
    simp [settlements, Deed.settled?, Function.comp_def]
  rw [hnew]
  refine (hp.append_right _).trans ((List.perm_ext_iff_of_nodup ?_ hs).2 fun a => ?_)
  · exact hb.append (hs.filter _) fun a ha hf => by simpa [ha] using (List.mem_filter.1 hf).2
  · simp only [List.mem_append, List.mem_filter, decide_eq_true_eq]
    exact ⟨fun h => h.elim (@hsub a) And.left, fun h => or_iff_not_imp_left.2 fun hn => ⟨h, hn⟩⟩

/-! ### Messages -/

/-- What is about a message. -/
def Happening.isMessage : Happening → Bool
  | sent .. | answered .. => true
  | _ => false

/-- What is said of anything else. -/
def Happening.besides? (h : Happening) : Option Happening := if h.isMessage then none else some h

/-- If nothing else is added to a log, then messages are. -/
theorem isMessage_of_pick {new log : List Happening}
    (h : pick besides? (new ++ log) = pick besides? log) : ∀ a ∈ new, a.isMessage = true := by
  intro a ha
  have hnone : pick besides? new = [] := by simpa using h
  by_contra hm
  have hmem : a ∈ pick besides? new := mem_pick.2 ⟨a, ha, if_neg hm⟩
  rw [hnone] at hmem
  cases hmem

/-- Messages that are written down are what the record says. -/
theorem sends_notes {new : List Happening} {r : Record} (w : World) (ho : Only e new)
    (hm : ∀ a ∈ new, a.isMessage = true) (hr : Record.of e.key new = r) :
    (∀ d ∈ notes w new, d.IsSend e) ∧ (notes w new).filterMap Deed.target? = r.attempts ∧
      (notes w new).filterMap Deed.reply? = r.replies ∧
      (notes w new).filterMap Deed.settled? = [] := by
  subst hr
  refine ⟨fun d hd => ?_, ?_, ?_, ?_⟩
  · obtain ⟨a, ha, rfl⟩ := List.mem_map.1 (List.mem_reverse.1 hd)
    have hm := hm a ha
    cases a <;> first | exact ho _ ha _ rfl | cases hm
  · exact (filterMap_notes (fun _ => rfl) new).trans (ho.pick_about fun _ => rfl).symm
  · exact (filterMap_notes (fun _ => rfl) new).trans (ho.pick_about fun _ => rfl).symm
  · rw [filterMap_notes (g := fun _ => none) fun _ => rfl]
    exact pick_eq_nil fun _ _ => rfl

namespace Journal

theorem Sends.nil : Sends e [] [] [] [] :=
  ⟨fun _ h => absurd h List.not_mem_nil, rfl, .nil, .nil⟩

/-- Messages are written down, and attempts come to their end. -/
theorem Sends.append {tokens tokens' : List DeviceToken}
    {replies replies' settled : List (DeviceToken × Nat)} {attempts : List (DeviceToken × Nat)}
    {new : List Happening} (w : World) (stage : Stage)
    (h : Sends e tokens replies settled l) (ho : Only e new) (hm : ∀ a ∈ new, a.isMessage = true)
    (hr : Record.of e.key new = { attempts, replies := replies' })
    (ht : tokens.zipIdx ++ attempts = tokens'.zipIdx) (hs : settled.Nodup)
    (hs' : stage.past.Nodup) (hsub : settled ⊆ stage.past) :
    Sends e tokens' (replies ++ replies') stage.past
      (l ++ notes w new ++ settlements settled (some stage)) := by
  obtain ⟨hown, hattempts, hreplies, hsettled⟩ := sends_notes w ho hm hr
  have hnew : ∀ d ∈ settlements settled (some stage), ∃ index token, d = .settled index token := by
    intro d hd
    obtain ⟨a, -, rfl⟩ := List.mem_map.1 hd
    exact ⟨_, _, rfl⟩
  have hnone {α : Type} {f : Deed → Option α} (hf : ∀ index token, f (.settled index token) = none) :
      (settlements settled (some stage)).filterMap f = [] := by
    refine List.filterMap_eq_nil_iff.2 fun d hd => ?_
    obtain ⟨index, token, rfl⟩ := hnew d hd
    exact hf index token
  refine ⟨fun d hd => ?_, ?_, ?_, ?_⟩
  · simp only [List.mem_append] at hd
    rcases hd with (hd | hd) | hd
    · exact h.own d hd
    · exact hown d hd
    · obtain ⟨index, token, rfl⟩ := hnew d hd
      trivial
  · rw [List.filterMap_append, List.filterMap_append, h.attempts, hattempts, hnone fun _ _ => rfl,
      List.append_nil, ht]
  · rw [List.filterMap_append, List.filterMap_append, hreplies, hnone fun _ _ => rfl, List.append_nil]
    exact h.replies.append_right _
  · rw [List.filterMap_append, List.filterMap_append, hsettled, List.append_nil]
    exact settlements_perm hs hs' hsub h.settled

end Journal

/-! ### One stage after another -/

open Journal

/-- A turn that leaves the cache as it is, and the journal of its errand; the attempts at `before` are
over already. -/
structure Tells (settings : Settings) (w : World) (e : Errand) (l : List Deed)
    (before : List (DeviceToken × Nat)) (s : Scene) (out : Option Stage × Scene) : Prop where
  clock : out.2.clock = s.clock
  story : ∃ new, out.2.log = new ++ s.log ∧
    Story settings e (l ++ notes w new ++ settlements before out.1) out.1

theorem Tells.note {h : Happening} (t : Tells settings w e (l ++ [.noted w h]) before (s.note h) out) :
    Tells settings w e l before s out := by
  obtain ⟨hclock, new, hl, hs⟩ := t
  refine ⟨hclock, new ++ [h], by simp [hl, Scene.note], ?_⟩
  rw [notes_append, ← List.append_assoc]
  exact hs

/-- Nothing more is written down. -/
theorem Tells.rest (hs : Story settings e l out.1) (hp : (out.1.map Stage.past).getD [] = [])
    (hl : out.2 = s) : Tells settings w e l before s out := by
  subst hl
  refine ⟨rfl, [], rfl, ?_⟩
  rw [settlements_nil hp]
  simpa [notes] using hs

theorem Tells.conclude (h : Done settings e (l ++ [.noted w (.ended e)])) :
    Tells settings w e l before s (conclude e s) :=
  .note (.rest h rfl rfl)

/-- A stage begins with a call. -/
theorem Tells.call {c : Call} (h : Told settings e (l ++ [.noted w (.called c)]) stage)
    (hp : stage.past = []) : Tells settings w e l before s (some stage, s.note (.called c)) :=
  .note (.rest h hp rfl)

theorem Tells.lookUp (h : Checks settings e true l) :
    Tells settings w e l before s (lookUp settings w e s) :=
  .call (.lookingUp w h rfl) rfl

theorem Tells.store {serve record : List Deed} (hs : Serves settings e serve)
    (hr : Records settings e record) :
    Tells settings w e (serve ++ record) before s (store settings w e s) := by
  unfold Delivery.store
  split
  · next hstorable => exact .call (.storing w hs hr hstorable rfl) rfl
  · next hstorable =>
    have hd := Done.served w hs hr (.passing (Bool.eq_false_iff.2 hstorable))
    rw [List.append_nil] at hd
    exact .conclude hd

theorem Tells.record (hs : Serves settings e l) :
    Tells settings w e l before s (record settings w e s) := by
  unfold Delivery.record
  split
  · next hn =>
    have ht : Tells settings w e (l ++ []) before s (Delivery.store settings w e s) :=
      .store hs (.unlimited hn)
    rwa [List.append_nil] at ht
  · next window hn => exact .call (.recording w hs hn rfl) rfl

theorem Tells.check : Tells settings w e [] before s (check settings w e s) := by
  unfold Delivery.check
  split
  · next hn => exact .lookUp (.unlimited hn)
  · next window hn => exact .call (.checking w hn rfl) rfl

/-- The cache has been asked about a cooldown. -/
theorem Tells.checking {window : Cooldown.Window} {call : Pending Failure Unit} {v : World}
    (hn : e.window? settings.cooldowns = some window)
    (ha : call.answer = (v.cache.within settings.limit Cooldown.checkName).answer) :
    Tells settings w e [.noted v (.called (.markExists window.key))] before s
      (proceed settings w e s (.checking window call)) := by
  have hc : Checks settings e
      (Cooldown.allows (call.answer.map fun _ => s.clock.cache.isMarked s.now window.key))
      [.noted v (.called (.markExists window.key)),
        .noted w (.checked e (call.answer.map fun _ => s.clock.cache.isMarked s.now window.key))] :=
    .asked hn (by rw [← ha]; cases call.answer <;> rfl)
  refine .note (h := .checked e (call.answer.map fun _ => s.clock.cache.isMarked s.now window.key)) ?_
  simp only [proceed]
  split
  · next hm => rw [hm] at hc; exact .lookUp hc
  · next hm => rw [Bool.eq_false_iff.2 hm] at hc; exact .conclude (.suppressed w hc)

/-- The devices have been looked up. -/
theorem Tells.lookingUp {check : List Deed} {call : Pending Failure (List DeviceToken)} {v : World}
    (hc : Checks settings e true check)
    (ha : call.answer = ((v.devices e.user).within settings.limit lookupName).answer) :
    Tells settings w e (check ++ [.noted v (.called (.devices e.user))]) [] s
      (proceed settings w e s (.lookingUp call)) := by
  have hl : Looks settings e call.answer
      [.noted v (.called (.devices e.user)), .noted w (.found e call.answer)] := ⟨v, w, ha, rfl⟩
  refine .note (h := .found e call.answer) ?_
  rw [List.append_assoc]
  simp only [proceed]
  split
  · next cause hcause =>
    rw [hcause] at hl ⊢
    exact .conclude (.unreachable w hc hl)
  · next tokens htokens =>
    rw [htokens] at hl ⊢
    set s' := s.note (.found e (.ok tokens))
    obtain ⟨ht, new, replies, hlog, ho, hrec, hp⟩ := Send.log_beginAll settings w e 0 tokens s'
    refine ⟨(Send.facts_beginAll settings w e 0 tokens s').2, new, hlog, ?_⟩
    have hm := isMessage_of_pick (hlog ▸ Send.pick_beginAll (f := besides?) (fun _ _ _ => rfl)
      (fun _ _ => rfl) settings w 0 tokens s')
    have hsends := Sends.append w (.sending (Send.beginAll settings w e 0 tokens s').1) .nil ho hm hrec
      rfl .nil Send.nodup_past (List.nil_subset _)
    rw [List.append_assoc]
    refine .sending hc ?_ ?_
    · rw [ht]; exact hl
    · rw [ht]
      exact { hsends with replies := hsends.replies.trans hp }

/-- Sends go on, or all of them have ended. -/
theorem Tells.sending {check look : List Deed} {sends : List (DeviceToken × Send)}
    (hc : Checks settings e true check) (hl : Looks settings e (.ok (sends.map (·.1))) look)
    (hs : Sends e (sends.map (·.1)) (Send.landed 0 sends) (Send.past 0 sends) l) :
    Tells settings w e (check ++ look ++ l) (Send.past 0 sends) s
      (proceed settings w e s (.sending sends)) := by
  simp only [proceed]
  split
  · next hall =>
    rw [Send.landed_of_ended hall, Send.past_of_ended hall] at hs
    exact .record (.mk hc hl hs)
  · obtain ⟨ht, new, replies, hlog, ho, hrec, hp⟩ := Send.log_proceedAll e 0 sends s
    refine ⟨(Send.facts_proceedAll e 0 sends s).2, new, hlog, ?_⟩
    have hm := isMessage_of_pick (hlog ▸ Send.pick_proceedAll (f := besides?) (fun _ _ _ => rfl) 0 sends s)
    have hsends := Sends.append w (.sending (Send.proceedAll e 0 sends s).1) hs ho hm hrec
      (List.append_nil _) Send.nodup_past Send.nodup_past (Send.past_subset e s)
    rw [List.append_assoc, List.append_assoc, ← List.append_assoc l]
    refine .sending hc ?_ ?_
    · rw [ht]; exact hl
    · rw [ht]
      exact { hsends with replies := hsends.replies.trans hp }

/-- A turn does what belongs to the journal of its errand, and changes the cache by that only. -/
theorem proceed_tells (h : Told settings e l stage) :
    Tells settings w e (l ++ stage.landing settings e s.now) stage.past
      (s.write (replay (stage.landing settings e s.now))) (proceed settings w e s stage) := by
  cases h with
  | fresh => exact .check
  | checking v hn ha => exact .checking hn ha
  | lookingUp v hc ha =>
    show Tells settings w e (_ ++ []) [] s _
    rw [List.append_nil]
    exact .lookingUp hc ha
  | @sending check look l sends hc hl hs =>
    show Tells settings w e (_ ++ []) (Send.past 0 sends) s _
    rw [List.append_nil]
    exact .sending hc hl hs
  | @recording serve window call v hs hn ha =>
    have hr := Records.asked v s.now hn
    rw [← ha] at hr
    rw [List.append_assoc]
    cases hc : call.answer <;> simp only [proceed, Stage.landing, hc] at hr ⊢ <;> exact .store hs hr
  | @storing serve record call v hs hr hstorable ha =>
    have hd := Done.served w hs hr (.asked v s.now hstorable)
    rw [← ha] at hd
    rw [List.append_assoc]
    cases hc : call.answer <;> simp only [proceed, Stage.landing, hc] at hd ⊢ <;> exact .conclude hd

/-! ### The cache -/

/-- What is changed for an errand is its own. -/
theorem owned_deeds {f : Flight} (h : Told settings f.errand l f.stage) :
    ∀ d ∈ f.deeds settings w s, d.Owned settings f.errand := by
  intro d hd
  simp only [Flight.deeds, List.mem_append] at hd
  rcases hd with (hd | hd) | hd
  · generalize f.stage = stage at h hd
    cases h with
    | fresh | checking | lookingUp | sending => cases hd
    | @recording serve window call v hs hn ha =>
      rw [List.mem_singleton.1 hd]
      cases call.answer with
      | ok a => exact ⟨window, hn, rfl⟩
      | error cause => trivial
    | @storing serve record call v hs hr hstorable ha =>
      rw [List.mem_singleton.1 hd]
      cases call.answer with
      | ok a => exact rfl
      | error cause => trivial
  · obtain ⟨a, -, rfl⟩ := List.mem_map.1 (List.mem_reverse.1 hd)
    trivial
  · obtain ⟨a, -, rfl⟩ := List.mem_map.1 hd
    trivial

/-- What is written down of a turn. -/
theorem filterMap_note?_deeds (f : Flight) : (f.deeds settings w s).filterMap Deed.note? =
    pick Deed.served? (proceed settings w f.errand s f.stage).2.log := by
  have hlanding : (f.stage.landing settings f.errand s.now).filterMap Deed.note? = [] := by
    cases f.stage with
    | recording window call | storing entry call =>
      simp only [Stage.landing]
      cases call.answer <;> rfl
    | fresh | checking | lookingUp | sending => rfl
  have hsettled : (settlements f.stage.past (proceed settings w f.errand s f.stage).1).filterMap
      Deed.note? = [] := by
    refine List.filterMap_eq_nil_iff.2 fun d hd => ?_
    obtain ⟨a, -, rfl⟩ := List.mem_map.1 hd
    rfl
  rw [Flight.deeds, List.filterMap_append, List.filterMap_append, hlanding, hsettled,
    filterMap_notes (g := Deed.served?) fun _ => rfl, List.nil_append, List.append_nil]

theorem replay_append (new deeds : List Deed) (c : Cache) :
    replay (new ++ deeds) c = replay new (replay deeds c) := List.foldr_append ..

/-- What no deed changes stays. -/
theorem replay_stays {α : Type} {g : Cache → α} {deeds : List Deed}
    (h : ∀ d ∈ deeds, ∀ c, g (d.effect c) = g c) (c : Cache) : g (replay deeds c) = g c := by
  induction deeds with
  | nil => rfl
  | cons d deeds ih =>
    exact (h d (List.mem_cons_self ..) _).trans (ih fun d hd => h d (List.mem_cons_of_mem _ hd))

/-- A turn changes the cache when a call for a change ends, and only then. -/
theorem replay_deeds (f : Flight) (c : Cache) : replay (f.deeds settings w s).reverse c =
    replay (f.stage.landing settings f.errand s.now) c := by
  have hlanding : (f.stage.landing settings f.errand s.now).reverse =
      f.stage.landing settings f.errand s.now := by cases f.stage <;> rfl
  rw [Flight.deeds, List.reverse_append, List.reverse_append, hlanding, replay_append, replay_append]
  refine (replay_stays (g := id) (fun d hd _ => ?_) _).trans (replay_stays (g := id) (fun d hd _ => ?_) _)
  · obtain ⟨a, -, rfl⟩ := List.mem_map.1 (List.mem_reverse.1 hd)
    rfl
  · obtain ⟨a, -, rfl⟩ := List.mem_map.1 (List.mem_reverse.1 (List.mem_reverse.1 hd))
    rfl

end

end Herald.Delivery
