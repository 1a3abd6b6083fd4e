import Herald.Proofs.Cooldown
import Herald.Proofs.Delivery.Ledger
import Mathlib.Data.List.Pairwise

/-!
# Cooldowns of deliveries

An errand checks its cooldown, sends its messages and records the cooldown, in this order but with
time in between. What the cache makes of this is read off a chronicle of checks, messages and
records: a record stands in the way of every check that takes effect after it, until the cooldown is
over.

* `State.facts`: what a move adds to the chronicle.
* `Chronicle`: how errands, the cache and the chronicle agree; `Chronicle.move`, `Chronicle.assign`
  and `Chronicle.pass` keep it.
* `Chronicle.apart`: what is sent after a check that came after a record.
-/

namespace Herald.Delivery

/-! ## What matters for cooldowns -/

/-- Something that matters for cooldowns. -/
inductive Fact where
  /-- The check of an errand took effect, and the errand was let go on or not. -/
  | checked (e : Errand) (allowed : Bool)
  /-- A message was sent to a device. -/
  | pushed (e : Errand) (token : DeviceToken)
  /-- The record of an errand took effect. -/
  | recorded (e : Errand)

namespace Fact

/-- The errand that it is about. -/
def errand : Fact → Errand
  | checked e _ | pushed e _ | recorded e => e

def ofHappening? : Happening → Option Fact
  | .checked e marked => some (checked e (Cooldown.allows marked))
  | .sent e _ token => some (pushed e token)
  | _ => none

end Fact

/-- What is seen of what happened, latest first. -/
def Scene.facts (s : Scene) : List Fact := s.log.filterMap Fact.ofHappening?

/-- The errand whose record takes effect when the flight goes on. -/
def Flight.recorded? (f : Flight) : Option Errand :=
  match f.stage with
  | .recording _ call => if call.answer.isOk then some f.errand else none
  | _ => none

/-- What is seen of a move of a worker, latest first. -/
def Worker.facts (settings : Settings) (w : World) (clock : ClockedCache) (k : Worker) (m : Move) :
    List Fact :=
  match k.step settings w clock m, m with
  | none, _ => []
  | some r, .turn position =>
    r.2.2.filterMap Fact.ofHappening? ++
      ((k.flights[position]?.bind Flight.recorded?).toList.map .recorded)
  | some r, _ => r.2.2.filterMap Fact.ofHappening?

/-- What is seen of a move of the worker at a position, with the time at which it happens. -/
def State.facts (settings : Settings) (w : World) (s : State) (worker : Nat) (m : Move) :
    List (Nat × Fact) :=
  (s.workers[worker]?.toList.flatMap (·.facts settings w s.clock m)).map (s.clock.now, ·)

/-! ## Chronicles -/

section

variable (settings : Settings) (facts : List (Nat × Fact)) (e : Errand)

/-- What happened goes before something else in a chronicle. A check is the first thing that is seen
of an errand, a record comes after all its messages, and whoever is let go on comes after the
cooldowns that were recorded. -/
def Follows (later earlier : Nat × Fact) : Prop :=
  earlier.1 ≤ later.1 ∧
  match later.2 with
  | .checked e allowed => earlier.2.errand.key ≠ e.key ∧ (allowed = true →
      ∀ e' window window', earlier.2 = .recorded e' → e.window? settings.cooldowns = some window →
        e'.window? settings.cooldowns = some window' → window'.key = window.key →
        earlier.1 + window'.ttl ≤ later.1)
  | .pushed e _ => ∀ e', earlier.2 = .recorded e' → e'.key ≠ e.key
  | .recorded _ => True

/-- Nothing was seen of an errand. -/
def Unseen : Prop := ∀ x ∈ facts, x.2.errand.key ≠ e.key

/-- No record of an errand took effect. -/
def Unrecorded : Prop := ∀ time e', (time, .recorded e') ∈ facts → e'.key ≠ e.key

/-- An errand that has a cooldown was let go on. -/
def Cleared : Prop :=
  e.window? settings.cooldowns ≠ none → ∃ time, (time, .checked e true) ∈ facts

/-- What a chronicle says of an errand at a stage. -/
def Stands : Stage → Prop
  | .fresh => Unseen facts e
  | .checking window call =>
    Unseen facts e ∧ e.window? settings.cooldowns = some window ∧ call.answer = .ok ()
  | .lookingUp _ => Unrecorded facts e ∧ Cleared settings facts e
  | .recording window _ => e.window? settings.cooldowns = some window
  | .sending _ | .storing _ _ => True

/-- The marks in a cache last as long as the cooldowns that were recorded. -/
def Marked (c : Cache) : Prop := ∀ time e window, (time, .recorded e) ∈ facts →
  e.window? settings.cooldowns = some window →
  ∃ ends, c.mark? window.key = some ends ∧ time + window.ttl ≤ ends

/-- How errands that were assigned and the cache agree with what was seen of them. -/
structure Chronicle (assigned waiting : List Errand) (flights : List Flight) (clock : ClockedCache) :
    Prop where
  known : ∀ x ∈ facts, x.2.errand ∈ assigned
  unseen : ∀ e ∈ waiting, Unseen facts e
  stands : ∀ f ∈ flights, Stands settings facts f.errand f.stage
  past : ∀ x ∈ facts, x.1 ≤ clock.now
  marked : Marked settings facts clock.cache
  ordered : facts.Pairwise (Follows settings)
  cleared : ∀ time e token, (time, .pushed e token) ∈ facts → Cleared settings facts e

/-- What a turn of an errand adds to a chronicle. -/
structure Adds (now : Nat) (clock : ClockedCache) (new : List (Nat × Fact)) (next : Option Stage) :
    Prop where
  about : ∀ x ∈ new, x.2.errand = e
  present : ∀ x ∈ new, x.1 = now
  now : clock.now = now
  follows : ∀ x ∈ new, ∀ y ∈ facts, Follows settings x y
  ordered : new.Pairwise (Follows settings)
  marked : Marked settings (new ++ facts) clock.cache
  cleared : ∀ time e token, (time, .pushed e token) ∈ new → Cleared settings (new ++ facts) e
  stands : ∀ stage ∈ next, Stands settings (new ++ facts) e stage

end

variable {settings : Settings} {w : World} {facts new : List (Nat × Fact)} {e : Errand}
  {s : Scene} {stage : Stage}

theorem Cleared.mono (h : Cleared settings facts e) : Cleared settings (new ++ facts) e := fun hw =>
  (h hw).imp fun _ hm => List.mem_append_right _ hm

theorem Unseen.append (h : Unseen facts e) (hn : ∀ x ∈ new, x.2.errand.key ≠ e.key) :
    Unseen (new ++ facts) e := fun x hx => (List.mem_append.1 hx).elim (hn x) (h x)

theorem Unrecorded.append (h : Unrecorded facts e) (hn : ∀ x ∈ new, x.2.errand.key ≠ e.key) :
    Unrecorded (new ++ facts) e := fun time e' hx =>
  (List.mem_append.1 hx).elim (hn _) (h time e')

/-- What is seen of other errands makes no difference. -/
theorem Stands.append (h : Stands settings facts e stage)
    (hn : ∀ x ∈ new, x.2.errand.key ≠ e.key) : Stands settings (new ++ facts) e stage := by
  cases stage with
  | fresh => exact Unseen.append h hn
  | checking window call => exact ⟨h.1.append hn, h.2⟩
  | lookingUp call => exact ⟨h.1.append hn, h.2.mono⟩
  | recording => exact h
  | sending | storing => trivial

/-! ## Turns -/

/-- Nothing is seen, and the marks of the cache stay. -/
theorem Adds.silent (clock : ClockedCache) {next : Option Stage}
    (hm : Marked settings facts clock.cache)
    (hs : ∀ stage ∈ next, Stands settings facts e stage) :
    Adds settings facts e clock.now clock [] next where
  about _ h := absurd h List.not_mem_nil
  present _ h := absurd h List.not_mem_nil
  now := rfl
  follows _ h := absurd h List.not_mem_nil
  ordered := .nil
  marked := hm
  cleared _ _ _ h := absurd h List.not_mem_nil
  stands := hs

/-- The errand goes on without a check or a message. -/
structure Quiet (settings : Settings) (e : Errand) (s : Scene) (out : Option Stage × Scene) :
    Prop where
  clock : out.2.clock = s.clock
  facts : out.2.facts = s.facts
  stands : ∀ stage ∈ out.1, ∀ facts, Stands settings facts e stage

theorem quiet_conclude (settings : Settings) (e : Errand) (s : Scene) :
    Quiet settings e s (conclude e s) :=
  ⟨rfl, rfl, fun _ h => by cases h⟩

theorem quiet_store (settings : Settings) (w : World) (e : Errand) (s : Scene) :
    Quiet settings e s (store settings w e s) := by
  unfold store
  split
  · exact ⟨rfl, rfl, fun _ h _ => by cases h; trivial⟩
  · exact quiet_conclude settings e s

theorem quiet_record (settings : Settings) (w : World) (e : Errand) (s : Scene) :
    Quiet settings e s (record settings w e s) := by
  unfold record
  split
  · exact quiet_store settings w e s
  · next window hw => exact ⟨rfl, rfl, fun _ h _ => by cases h; exact hw⟩

/-! ### Messages -/

theorem Send.facts_proceed (e : Errand) (index : Nat) (token : DeviceToken) (s : Scene) (send : Send) :
    (send.proceed e index token s).2.facts = s.facts ∧
      (send.proceed e index token s).2.clock = s.clock := by
  cases send with
  | flying call =>
    simp only [proceed]
    split
    · split
      · unfold park; split <;> exact ⟨rfl, rfl⟩
      · exact ⟨rfl, rfl⟩
    · exact ⟨rfl, rfl⟩
  | parked ticket => simp only [proceed]; split <;> exact ⟨rfl, rfl⟩
  | ended => exact ⟨rfl, rfl⟩

theorem Send.facts_proceedAll (e : Errand) (index : Nat) (sends : List (DeviceToken × Send))
    (s : Scene) : (proceedAll e index sends s).2.facts = s.facts ∧
      (proceedAll e index sends s).2.clock = s.clock := by
  induction sends generalizing index s with
  | nil => exact ⟨rfl, rfl⟩
  | cons p sends ih =>
    obtain ⟨hf', hc'⟩ := Send.facts_proceed e index p.1 s p.2
    obtain ⟨hf, hc⟩ := ih (index + 1) (p.2.proceed e index p.1 s).2
    exact ⟨hf.trans hf', hc.trans hc'⟩

theorem Send.facts_beginAll (settings : Settings) (w : World) (e : Errand) (index : Nat)
    (tokens : List DeviceToken) (s : Scene) :
    (beginAll settings w e index tokens s).2.facts = (tokens.map (.pushed e)).reverse ++ s.facts ∧
      (beginAll settings w e index tokens s).2.clock = s.clock := by
  induction tokens generalizing index s with
  | nil => exact ⟨rfl, rfl⟩
  | cons token tokens ih =>
    obtain ⟨hf', hc'⟩ := Send.facts_proceed e index token (s.note (.sent e index token))
      (.flying (.start s.now settings.limit pushName (w.gateway index token)))
    obtain ⟨hf, hc⟩ := ih (index + 1) (Send.proceed e index token (s.note (.sent e index token))
      (.flying (.start s.now settings.limit pushName (w.gateway index token)))).2
    refine ⟨?_, hc.trans hc'⟩
    rw [List.map_cons, List.reverse_cons, List.append_assoc]
    exact hf.trans (congrArg _ hf')

/-! ### One stage after another -/

theorem Quiet.adds {out : Option Stage × Scene} (q : Quiet settings e s out) (hs : s.facts = [])
    (hm : Marked settings facts s.clock.cache) :
    Adds settings facts e s.now out.2.clock (out.2.facts.map (s.now, ·)) out.1 := by
  rw [q.facts, hs, q.clock]
  exact .silent s.clock hm fun stage h => q.stands stage h facts

/-- The check is the first thing that is seen of an errand. If it is let go on, the cooldowns that
were recorded are over. -/
theorem Adds.checking {window : Cooldown.Window} (next : Option Stage) (allowed : Bool)
    (hu : Unseen facts e) (hw : e.window? settings.cooldowns = some window)
    (hpast : ∀ x ∈ facts, x.1 ≤ s.now) (hm : Marked settings facts s.clock.cache)
    (ha : allowed = true → s.clock.cache.isMarked s.now window.key = false)
    (hn : ∀ stage ∈ next, allowed = true ∧ ∃ call, stage = .lookingUp call) :
    Adds settings facts e s.now s.clock [(s.now, .checked e allowed)] next where
  about x hx := by rw [List.mem_singleton.1 hx]; rfl
  present x hx := by rw [List.mem_singleton.1 hx]
  now := rfl
  follows x hx y hy := by
    rw [List.mem_singleton.1 hx]
    refine ⟨hpast y hy, hu y hy, ?_⟩
    rintro hal e' window₁ window' he hw₁ hw' hk
    obtain rfl : window = window₁ := Option.some.inj (hw.symm.trans hw₁)
    obtain ⟨time, fact⟩ := y
    obtain rfl : fact = .recorded e' := he
    obtain ⟨ends, hends, hle⟩ := hm time e' window' hy hw'
    have hnot := ha hal
    rw [Cache.isMarked, ← hk, hends] at hnot
    exact Nat.le_trans hle (Nat.not_lt.1 (of_decide_eq_false hnot))
  ordered := List.pairwise_singleton _ _
  marked time e' window' hx hw' := by
    rcases List.mem_cons.1 hx with hx | hx
    · cases hx
    · exact hm time e' window' hx hw'
  cleared time e' token hx := by cases List.mem_singleton.1 hx
  stands stage hstage := by
    obtain ⟨rfl, call, rfl⟩ := hn stage hstage
    refine ⟨?_, fun _ => ⟨s.now, List.mem_cons_self ..⟩⟩
    intro time e' hx
    rcases List.mem_cons.1 hx with hx | hx
    · cases hx
    · exact hu _ hx

/-- Messages are sent once the errand was let go on, and before its record. -/
theorem Adds.pushing {tokens : List DeviceToken} {next : Option Stage}
    (hu : Unrecorded facts e) (hc : Cleared settings facts e)
    (hpast : ∀ x ∈ facts, x.1 ≤ s.now) (hm : Marked settings facts s.clock.cache)
    (hn : ∀ stage ∈ next, ∀ facts, Stands settings facts e stage) :
    Adds settings facts e s.now s.clock
      ((tokens.map (Fact.pushed e)).reverse.map (s.now, ·)) next := by
  have hmem : ∀ x ∈ (tokens.map (Fact.pushed e)).reverse.map (s.now, ·),
      ∃ token, x = (s.now, .pushed e token) := by
    intro x hx
    obtain ⟨fact, hf, rfl⟩ := List.mem_map.1 hx
    obtain ⟨token, -, rfl⟩ := List.mem_map.1 (List.mem_reverse.1 hf)
    exact ⟨token, rfl⟩
  constructor
  · intro x hx; obtain ⟨token, rfl⟩ := hmem x hx; rfl
  · intro x hx; obtain ⟨token, rfl⟩ := hmem x hx; rfl
  · rfl
  · intro x hx y hy
    obtain ⟨token, rfl⟩ := hmem x hx
    exact ⟨hpast y hy, fun e' he => hu y.1 e' (he ▸ hy)⟩
  · refine List.Pairwise.imp_of_mem (R := fun _ _ => True) ?_ (List.pairwise_of_forall fun _ _ => trivial)
    intro x y hx hy _
    obtain ⟨token, rfl⟩ := hmem x hx
    obtain ⟨token', rfl⟩ := hmem y hy
    exact ⟨Nat.le_refl _, fun e' he => by cases he⟩
  · intro time e' window hx hw
    rcases List.mem_append.1 hx with hx | hx
    · obtain ⟨token, hx⟩ := hmem _ hx; cases hx
    · exact hm time e' window hx hw
  · intro time e' token hx
    obtain ⟨token', hx⟩ := hmem _ hx
    cases hx; exact hc.mono
  · exact fun stage hs => hn stage hs _

/-- A record sets the mark of its cooldown, which outlasts all earlier ones with the same key. -/
theorem Adds.recording {window : Cooldown.Window} {next : Option Stage} {clock : ClockedCache}
    (hw : e.window? settings.cooldowns = some window) (hpast : ∀ x ∈ facts, x.1 ≤ s.now)
    (hm : Marked settings facts s.clock.cache)
    (hclock : clock = { s.clock with
      cache := s.clock.cache.setMark window.key (s.now + window.ttl) })
    (hn : ∀ stage ∈ next, ∀ facts, Stands settings facts e stage) :
    Adds settings facts e s.now clock [(s.now, .recorded e)] next where
  about x hx := by rw [List.mem_singleton.1 hx]; rfl
  present x hx := by rw [List.mem_singleton.1 hx]
  now := by rw [hclock]; rfl
  follows x hx y hy := by rw [List.mem_singleton.1 hx]; exact ⟨hpast y hy, trivial⟩
  ordered := List.pairwise_singleton _ _
  marked time e' window' hx hw' := by
    rw [hclock, Cache.mark?_setMark]
    rcases List.mem_cons.1 hx with hx | hx
    · cases hx
      obtain rfl : window = window' := Option.some.inj (hw.symm.trans hw')
      exact ⟨_, if_pos rfl, Nat.le_refl _⟩
    · split
      · next hk =>
        refine ⟨_, rfl, ?_⟩
        rw [Cooldown.ttl_eq_of_key_eq hw' hw hk]
        exact Nat.add_le_add_right (hpast _ hx) _
      · exact hm time e' window' hx hw'
  cleared time e' token hx := by cases List.mem_singleton.1 hx
  stands stage hs := hn stage hs _

theorem answer_start (hw : w.cache.lands settings.limit = true) (now : Nat) (operation : String) :
    (Pending.start now settings.limit operation w.cache).answer = .ok () := by
  obtain ⟨hd, ha⟩ := Bool.and_eq_true_iff.1 hw
  simp only [Pending.start, Reply.within, of_decide_eq_true hd, if_true]
  cases h : w.cache.answer with
  | ok a => rfl
  | error cause => rw [h] at ha; cases ha

/-- Nothing is seen of an errand before its check is answered. -/
theorem adds_of_fresh (hu : Unseen facts e) (hm : Marked settings facts s.clock.cache)
    (hw : w.cache.lands settings.limit = true) (hf : s.facts = []) :
    Adds settings facts e s.now (check settings w e s).2.clock
      ((check settings w e s).2.facts.map (s.now, ·)) (check settings w e s).1 := by
  have hfacts : (check settings w e s).2.facts = [] := by
    unfold check; split <;> exact hf
  rw [hfacts]
  unfold check
  split
  · next hn =>
    refine .silent s.clock hm ?_
    rintro _ ⟨⟩
    exact ⟨fun time e' hx => hu _ hx, fun h => absurd hn h⟩
  · next window hn =>
    refine .silent s.clock hm ?_
    rintro _ ⟨⟩
    exact ⟨hu, hn, answer_start hw _ _⟩

/-- What is seen of an errand when its check is answered. -/
theorem adds_of_checking {window : Cooldown.Window} {call : Pending Failure Unit}
    (hst : Stands settings facts e (.checking window call)) (hpast : ∀ x ∈ facts, x.1 ≤ s.now)
    (hm : Marked settings facts s.clock.cache) (hs : s.log = []) :
    Adds settings facts e s.now (proceed settings w e s (.checking window call)).2.clock
      ((proceed settings w e s (.checking window call)).2.facts.map (s.now, ·))
      (proceed settings w e s (.checking window call)).1 := by
  obtain ⟨hu, hwin, hcall⟩ := hst
  simp only [proceed, hcall, Except.map]
  generalize hmarked : Except.ok (s.clock.cache.isMarked s.now window.key) = marked
  split
  · next ha =>
    have hadd := Adds.checking (some (.lookingUp
      (.start s.now settings.limit lookupName (w.devices e.user)))) true hu hwin hpast
      hm (fun _ => by simpa [← hmarked, Cooldown.allows] using ha)
      (fun _ h => ⟨rfl, _, (Option.some.inj h).symm⟩)
    have hfacts : (lookUp settings w e (s.note (.checked e marked))).2.facts = [.checked e true] := by
      simp only [lookUp, Scene.facts, Scene.note, hs, ← ha]; rfl
    rw [hfacts]
    exact hadd
  · next ha =>
    have hadd := Adds.checking none false hu hwin hpast
      hm (fun h => by cases h) (fun _ h => by cases h)
    have hfacts : (conclude e (s.note (.checked e marked))).2.facts = [.checked e false] := by
      simp only [conclude, Scene.facts, Scene.note, hs, ← Bool.eq_false_iff.2 ha]; rfl
    rw [hfacts]
    exact hadd

/-- What a turn adds to the chronicle, with a cache on which one can rely. -/
theorem proceed_adds (hst : Stands settings facts e stage) (hpast : ∀ x ∈ facts, x.1 ≤ s.now)
    (hm : Marked settings facts s.clock.cache) (hw : w.cache.lands settings.limit = true)
    (hs : s.log = []) :
    Adds settings facts e s.now (proceed settings w e s stage).2.clock
      (((proceed settings w e s stage).2.facts ++
        (Flight.recorded? ⟨e, stage⟩).toList.map Fact.recorded).map (s.now, ·))
      (proceed settings w e s stage).1 := by
  have hf : s.facts = [] := by rw [Scene.facts, hs]; rfl
  cases stage with
  | fresh => simpa [proceed, Flight.recorded?] using adds_of_fresh hst hm hw hf
  | checking window call =>
    simpa [Flight.recorded?] using adds_of_checking (w := w) hst hpast hm hs
  | lookingUp call =>
    simp only [proceed, Flight.recorded?, Option.toList_none, List.map_nil, List.append_nil]
    split
    · next cause hc =>
      exact (quiet_conclude settings e (s.note (.found e call.answer))).adds hf hm
    · next tokens hc =>
      obtain ⟨hfacts, hclock⟩ := Send.facts_beginAll settings w e 0 tokens
        (s.note (.found e call.answer))
      have hnone : (s.note (.found e call.answer)).facts = [] := hf
      rw [hfacts, hclock, hnone, List.append_nil]
      refine Adds.pushing (s := s) hst.1 hst.2 hpast hm ?_
      rintro _ ⟨⟩ _; trivial
  | sending sends =>
    simp only [proceed, Flight.recorded?, Option.toList_none, List.map_nil, List.append_nil]
    split
    · exact (quiet_record settings w e s).adds hf hm
    · obtain ⟨hfacts, hclock⟩ := Send.facts_proceedAll e 0 sends s
      refine Quiet.adds ⟨hclock, hfacts, ?_⟩ hf hm
      rintro _ ⟨⟩ _; trivial
  | recording window call =>
    simp only [proceed, Flight.recorded?]
    split
    · next a hc =>
      have hq := quiet_store settings w e (s.write (·.setMark window.key (s.now + window.ttl)))
      have hadd := Adds.recording (s := s) hst hpast hm hq.clock hq.stands
      rw [hq.facts]
      simpa [hc, Except.isOk, Except.toBool, Scene.facts, Scene.write, hs] using hadd
    · next cause hc =>
      simpa [hc, Except.isOk, Except.toBool] using
        (quiet_store settings w e s).adds hf hm
  | storing entry call =>
    simp only [proceed, Flight.recorded?, Option.toList_none, List.map_nil, List.append_nil]
    split
    · exact (quiet_conclude settings e (s.write _)).adds hf hm
    · exact (quiet_conclude settings e s).adds hf hm

/-! ## Moves -/

namespace Chronicle

variable {assigned waiting waiting' : List Errand} {flights flights' : List Flight} {f : Flight}
  {clock clock' : ClockedCache} {log : List Happening} {worlds : World → Prop} {t : State}

theorem nil {clock : ClockedCache} : Chronicle settings [] [] [] [] clock where
  known _ h := absurd h List.not_mem_nil
  unseen _ h := absurd h List.not_mem_nil
  stands _ h := absurd h List.not_mem_nil
  past _ h := absurd h List.not_mem_nil
  marked _ _ _ h := absurd h List.not_mem_nil
  ordered := .nil
  cleared _ _ _ h := absurd h List.not_mem_nil

theorem perm (c : Chronicle settings facts assigned waiting flights clock)
    (hw : waiting.Perm waiting') (hf : flights.Perm flights') :
    Chronicle settings facts assigned waiting' flights' clock :=
  { c with
    unseen := fun e he => c.unseen e (hw.mem_iff.2 he)
    stands := fun f he => c.stands f (hf.mem_iff.2 he) }

theorem start (c : Chronicle settings facts assigned (e :: waiting) flights clock) :
    Chronicle settings facts assigned waiting (⟨e, .fresh⟩ :: flights) clock :=
  { c with
    unseen := fun e he => c.unseen e (List.mem_cons_of_mem _ he)
    stands := fun f hf => by
      rcases List.mem_cons.1 hf with rfl | hf
      · exact c.unseen e (List.mem_cons_self ..)
      · exact c.stands f hf }

theorem pass (c : Chronicle settings facts assigned waiting flights clock) (time : Nat) :
    Chronicle settings facts assigned waiting flights { clock with now := max clock.now time } :=
  { c with past := fun x hx => Nat.le_trans (c.past x hx) (Nat.le_max_left ..) }

theorem assign {new : List Errand} (c : Chronicle settings facts assigned waiting flights clock)
    (hn : ((assigned ++ new).map (·.key)).Nodup) :
    Chronicle settings facts (assigned ++ new) (waiting ++ new) flights clock :=
  { c with
    known := fun x hx => List.mem_append_left _ (c.known x hx)
    unseen := fun e he => by
      rcases List.mem_append.1 he with he | he
      · exact c.unseen e he
      · intro x hx
        rw [List.map_append] at hn
        exact (List.nodup_append.1 hn).2.2 _ (List.mem_map_of_mem (c.known x hx)) _
          (List.mem_map_of_mem he) }

/-- A turn of an errand is seen, and nothing else changes. -/
theorem add {next : Option Stage}
    (c : Chronicle settings facts assigned waiting (f :: flights) clock)
    (b : Books settings worlds assigned waiting (f :: flights) log)
    (hn : (assigned.map (·.key)).Nodup)
    (h : Adds settings facts f.errand clock.now clock' new next) :
    Chronicle settings (new ++ facts) assigned waiting (next.toList.map (⟨f.errand, ·⟩) ++ flights)
      clock' := by
  have hkey : ∀ e ∈ waiting ++ flights.map (·.errand), ∀ x ∈ new, x.2.errand.key ≠ e.key := by
    intro e he x hx
    rw [h.about x hx]
    exact b.key_ne hn (List.mem_append_left _ he)
  refine ⟨?_, ?_, ?_, ?_, h.marked, ?_, ?_⟩
  · intro x hx
    rcases List.mem_append.1 hx with hx | hx
    · rw [h.about x hx]
      exact b.placed_cons.mem_iff.1 (List.mem_cons_self ..)
    · exact c.known x hx
  · exact fun e he => (c.unseen e he).append (hkey e (List.mem_append_left _ he))
  · intro g hg
    rcases List.mem_append.1 hg with hg | hg
    · obtain ⟨stage, hs, rfl⟩ := List.mem_map.1 hg
      exact h.stands stage (Option.mem_toList.1 hs)
    · exact (c.stands g (List.mem_cons_of_mem _ hg)).append
        (hkey _ (List.mem_append_right _ (List.mem_map_of_mem hg)))
  · intro x hx
    rw [h.now]
    rcases List.mem_append.1 hx with hx | hx
    · exact Nat.le_of_eq (h.present x hx)
    · exact c.past x hx
  · exact List.pairwise_append.2 ⟨h.ordered, c.ordered, h.follows⟩
  · intro time e token hx
    rcases List.mem_append.1 hx with hx | hx
    · exact h.cleared time e token hx
    · exact (c.cleared time e token hx).mono

end Chronicle

/-- What is seen of a turn. -/
theorem State.facts_turn {s : State} {worker position : Nat} {k : Worker} {f : Flight}
    (hk : s.workers[worker]? = some k) (hf : k.flights[position]? = some f)
    (hr : f.stage.isReady (k.scene s.clock) = true) :
    s.facts settings w worker (.turn position) =
      ((proceed settings w f.errand (k.scene s.clock) f.stage).2.facts ++
        f.recorded?.toList.map Fact.recorded).map (s.clock.now, ·) := by
  simp only [State.facts, hk, Option.toList_some, List.flatMap_cons, List.flatMap_nil,
    List.append_nil, Worker.facts, Worker.step, hf, hr, if_true, Option.bind_some]
  rfl

/-- Only turns are seen. -/
theorem State.facts_nil {s : State} {worker : Nat} {m : Move} (hm : ∀ position, m ≠ .turn position) :
    s.facts settings w worker m = [] := by
  refine List.map_eq_nil_iff.2 (List.flatMap_eq_nil_iff.2 fun k _ => ?_)
  unfold Worker.facts
  split
  · rfl
  · exact absurd rfl (hm _)
  · next hstep =>
    cases Move.Step.of_step hstep with
    | start | take | finish => rfl
    | turn => exact absurd rfl (hm _)

namespace Chronicle

variable {assigned : List Errand} {worlds : World → Prop} {s t : State} {worker : Nat} {m : Move}

/-- A move of a worker is seen. -/
theorem move (c : Chronicle settings facts assigned s.waiting s.flights s.clock)
    (b : Books settings worlds assigned s.waiting s.flights s.log)
    (hn : (assigned.map (·.key)).Nodup) (hw : w.cache.lands settings.limit = true)
    (h : s.step settings w worker m = some t) :
    Chronicle settings (s.facts settings w worker m ++ facts) assigned t.waiting t.flights
      t.clock := by
  cases State.Step.of_step h with
  | start hsw htw htf hclock =>
    rw [State.facts_nil (m := .start) nofun, hclock]
    exact (c.perm hsw .rfl).start.perm htw.symm htf.symm
  | @turn _ _ k _ _ _ hk hf hready ho hwaiting hsf htf hclock =>
    have b' := b.perm hwaiting.symm hsf
    have c' := c.perm hwaiting.symm hsf
    have hadd := proceed_adds (s := k.scene s.clock) (c'.stands _ (List.mem_cons_self ..)) c.past
      c.marked hw rfl
    rw [State.facts_turn hk hf hready, hclock]
    rw [ho] at hadd ⊢
    exact (c'.add b' hn hadd).perm .rfl htf.symm
  | take hwaiting hflights hclock =>
    rw [State.facts_nil (m := .take) nofun, hclock]
    exact c.perm hwaiting.symm hflights.symm
  | finish hwaiting hflights hclock =>
    rw [State.facts_nil (m := .finish) nofun, hclock]
    exact c.perm hwaiting.symm hflights.symm

theorem assign_state {job : Job} {number : Nat}
    (c : Chronicle settings facts assigned s.waiting s.flights s.clock)
    (hn : ((assigned ++ job.errands number).map (·.key)).Nodup) (hlt : worker < s.workers.length) :
    Chronicle settings facts (assigned ++ job.errands number)
      (s.assign worker job number).waiting (s.assign worker job number).flights
      (s.assign worker job number).clock :=
  (c.assign hn).perm (State.waiting_assign hlt job number).symm
    (State.flights_assign hlt job number).symm

end Chronicle

/-! ## What is apart -/

theorem related_of_mem {α : Type} {R : α → α → Prop} {l : List α} {a b : α} (h : l.Pairwise R)
    (ha : a ∈ l) (hb : b ∈ l) : a = b ∨ R a b ∨ R b a := by
  by_cases hab : a = b
  · exact .inl hab
  · have hs : l.Pairwise fun a b => R a b ∨ R b a := h.imp .inl
    have : Std.Symm fun a b => R a b ∨ R b a := ⟨fun _ _ => Or.symm⟩
    exact .inr (hs.forall ha hb hab)

/-- A message of an errand that was checked after the record of another one comes a cooldown later
than the messages of the other one. -/
theorem Chronicle.apart {assigned waiting : List Errand} {flights : List Flight}
    {clock : ClockedCache} {e e' : Errand} {window window' : Cooldown.Window} {t t' ρ χ : Nat}
    {token token' : DeviceToken} {allowed : Bool}
    (c : Chronicle settings facts assigned waiting flights clock)
    (hw : e.window? settings.cooldowns = some window)
    (hw' : e'.window? settings.cooldowns = some window') (hk : window.key = window'.key)
    (hp : (t, .pushed e token) ∈ facts) (hp' : (t', .pushed e' token') ∈ facts)
    (ho : [(χ, .checked e' allowed), (ρ, .recorded e)].Sublist facts) : t + window.ttl ≤ t' := by
  have hsub := List.pairwise_iff_forall_sublist.1 c.ordered ho
  have hcm := ho.subset (List.mem_cons_self ..)
  have hrm := ho.subset (List.mem_cons_of_mem _ (List.mem_cons_self ..))
  -- The check that let the errand go on is the one that came after the record.
  obtain ⟨χ', hc'⟩ := c.cleared t' e' token' hp' (by rw [hw']; exact Option.some_ne_none _)
  have hallowed : allowed = true := by
    rcases related_of_mem c.ordered hcm hc' with h | h | h
    · cases h; rfl
    · exact absurd rfl h.2.1
    · exact absurd rfl h.2.1
  have hgap := hsub.2.2 hallowed e window' window rfl hw' hw hk
  have hsent : χ ≤ t' := by
    rcases related_of_mem c.ordered hcm hp' with h | h | h
    · cases h
    · exact absurd rfl h.2.1
    · exact h.1
  have hbefore : t ≤ ρ := by
    rcases related_of_mem c.ordered hrm hp with h | h | h
    · cases h
    · exact h.1
    · exact absurd rfl (h.2 e rfl)
  calc t + window.ttl ≤ ρ + window.ttl := Nat.add_le_add_right hbefore _
    _ ≤ χ := hgap
    _ ≤ t' := hsent

end Herald.Delivery
