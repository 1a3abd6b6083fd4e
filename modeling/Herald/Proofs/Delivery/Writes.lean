import Herald.Proofs.Delivery.Chronicle

/-!
# What deliveries leave behind

What is asked of the cache and of the device store, and what is written to the cache, is on behalf of
an errand that was assigned, and it is what that errand calls for.

* `Asks`, `Owns`: the calls of an errand, and what a stage of it is about to write.
* `Turns`, `proceed_turns`: what a turn asks for and writes.
* `Writes`: how errands agree with the cache and with the calls; `Writes.move`, `Writes.assign` and
  `Writes.call` keep it.
-/

namespace Herald.Delivery

/-! ## Turns -/

/-- What is asked on behalf of an errand. -/
def Asks (settings : Settings) (e : Errand) : Call → Prop
  | .devices user => user = e.user
  | .markExists key =>
    ∃ window, e.window? settings.cooldowns = some window ∧ window.key = key
  | .setMark key ttl => e.window? settings.cooldowns = some ⟨key, ttl⟩
  | .pushEntry key _ => key = History.key e.user
  | _ => False

/-- What a stage is about to look at or to write is the errand's own. -/
def Owns (settings : Settings) (e : Errand) : Stage → Prop
  | .checking window _ | .recording window _ => e.window? settings.cooldowns = some window
  | .storing entry _ => (∃ time, entry = e.entry time) ∧ e.notification.category.isStorable = true
  | _ => True

/-- What a turn may make of the cache. -/
inductive Writing (settings : Settings) (e : Errand) (c : Cache) : Cache → Prop
  | none : Writing settings e c c
  | mark {window : Cooldown.Window} {ends : Nat} : e.window? settings.cooldowns = some window →
    Writing settings e c (c.setMark window.key ends)
  | entry {time : Int64} {cap : Nat} :
    Writing settings e c (c.push (History.key e.user) (e.entry time).encode cap)

/-- What a turn of an errand asks for and writes. -/
structure Turns (settings : Settings) (e : Errand) (s : Scene) (out : Option Stage × Scene) :
    Prop where
  owns : ∀ stage ∈ out.1, Owns settings e stage
  writes : Writing settings e s.clock.cache out.2.clock.cache
  asks : ∀ c, .called c ∈ out.2.log → .called c ∈ s.log ∨ Asks settings e c

section

variable {settings : Settings} {w : World} {e : Errand} {s : Scene} {stage : Stage}
  {out : Option Stage × Scene}

theorem Turns.note {h : Happening} (hh : h.call? = none) (t : Turns settings e (s.note h) out) :
    Turns settings e s out := by
  refine ⟨t.owns, t.writes, fun c hc => (t.asks c hc).imp_left fun hm => ?_⟩
  rcases List.mem_cons.1 hm with rfl | hm
  · cases hh
  · exact hm

/-- A stage begins with a call. -/
theorem Turns.call {c : Call} (ho : Owns settings e stage) (hc : Asks settings e c) :
    Turns settings e s (some stage, s.note (.called c)) := by
  refine ⟨fun _ h => by cases h; exact ho, .none, fun c' hm => ?_⟩
  rcases List.mem_cons.1 hm with hm | hm
  · cases hm; exact .inr hc
  · exact .inl hm

/-- The cache is written to, and then left alone. -/
theorem Turns.write {f : Cache → Cache} (hw : Writing settings e s.clock.cache (f s.clock.cache))
    (hc : out.2.clock = (s.write f).clock) (t : Turns settings e (s.write f) out) :
    Turns settings e s out :=
  ⟨t.owns, by rw [hc]; exact hw, t.asks⟩

theorem turns_conclude : Turns settings e s (conclude e s) := by
  refine ⟨fun _ h => (by cases h), .none, fun c hm => ?_⟩
  rcases List.mem_cons.1 hm with hm | hm
  · cases hm
  · exact .inl hm

theorem turns_store : Turns settings e s (store settings w e s) := by
  unfold store
  split
  · next hs => exact .call ⟨⟨_, rfl⟩, hs⟩ rfl
  · exact turns_conclude

theorem turns_record : Turns settings e s (record settings w e s) := by
  unfold record
  split
  · exact turns_store
  · next hw => exact .call hw hw

theorem turns_lookUp : Turns settings e s (lookUp settings w e s) := .call trivial rfl

theorem turns_check : Turns settings e s (check settings w e s) := by
  unfold check
  split
  · exact turns_lookUp
  · next hw => exact .call hw ⟨_, hw, rfl⟩

theorem mem_calls {c : Call} {log : List Happening} :
    .called c ∈ log ↔ c ∈ pick Happening.call? log := by
  rw [mem_pick]
  constructor
  · exact fun h => ⟨_, h, rfl⟩
  · rintro ⟨h, hm, hc⟩
    cases h <;> cases hc
    exact hm

/-- What a turn asks for and writes is the errand's own, and so is what comes next. -/
theorem proceed_turns (ho : Owns settings e stage) :
    Turns settings e s (proceed settings w e s stage) := by
  cases stage with
  | fresh => exact turns_check
  | checking window call =>
    refine .note (h := .checked e (call.answer.map fun _ => s.clock.cache.isMarked s.now window.key))
      rfl ?_
    simp only [proceed]
    split
    · exact turns_lookUp
    · exact turns_conclude
  | lookingUp call =>
    refine .note (h := .found e call.answer) rfl ?_
    simp only [proceed]
    split
    · exact turns_conclude
    · next tokens _ =>
      refine ⟨fun _ h => by cases h; trivial, ?_, fun c hm => .inl ?_⟩
      · rw [(Send.facts_beginAll settings w e 0 tokens _).2]
        exact .none
      · rw [mem_calls, Send.pick_beginAll (fun _ _ _ => rfl) (fun _ _ => rfl)] at hm
        exact mem_calls.2 hm
  | sending sends =>
    simp only [proceed]
    split
    · exact turns_record
    · refine ⟨fun _ h => by cases h; trivial, ?_, fun c hm => .inl ?_⟩
      · rw [(Send.facts_proceedAll e 0 sends s).2]
        exact .none
      · rw [mem_calls, Send.pick_proceedAll fun _ _ _ => rfl] at hm
        exact mem_calls.2 hm
  | recording window call =>
    simp only [proceed]
    split
    · exact .write (.mark ho) (quiet_store settings w e _).clock turns_store
    · exact turns_store
  | storing entry call =>
    simp only [proceed]
    split
    · obtain ⟨⟨time, rfl⟩, -⟩ := ho
      exact .write .entry (quiet_conclude settings e _).clock turns_conclude
    · exact turns_conclude

end

/-! ## Runs -/

/-- How errands that were assigned agree with the cache, and with the calls that were made; `other` are
calls for which no errand is needed. -/
structure Writes (settings : Settings) (other : Call → Prop) (assigned waiting : List Errand)
    (flights : List Flight) (cache : Cache) (log : List Happening) : Prop where
  waiting : ∀ e ∈ waiting, e ∈ assigned
  flights : ∀ f ∈ flights, f.errand ∈ assigned ∧ Owns settings f.errand f.stage
  marks : ∀ key ends, cache.mark? key = some ends → ∃ e ∈ assigned, ∃ window,
    e.window? settings.cooldowns = some window ∧ window.key = key
  entries : ∀ key, ∀ text ∈ cache.entries key, ∃ e ∈ assigned, ∃ time,
    key = History.key e.user ∧ text = (e.entry time).encode
  calls : ∀ c, .called c ∈ log → other c ∨ ∃ e ∈ assigned, Asks settings e c

namespace Writes

variable {settings : Settings} {other : Call → Prop} {assigned waiting waiting' new : List Errand}
  {flights flights' : List Flight} {cache : Cache} {log : List Happening} {f : Flight}

theorem perm (v : Writes settings other assigned waiting flights cache log)
    (hw : waiting.Perm waiting') (hf : flights.Perm flights') :
    Writes settings other assigned waiting' flights' cache log :=
  { v with
    waiting := fun e he => v.waiting e (hw.mem_iff.2 he)
    flights := fun f hf' => v.flights f (hf.mem_iff.2 hf') }

theorem start {e : Errand}
    (v : Writes settings other assigned (e :: waiting) flights cache log) :
    Writes settings other assigned waiting (⟨e, .fresh⟩ :: flights) cache (.began e :: log) :=
  { v with
    waiting := fun e' he => v.waiting e' (List.mem_cons_of_mem _ he)
    flights := fun f hf => by
      rcases List.mem_cons.1 hf with rfl | hf
      · exact ⟨v.waiting e (List.mem_cons_self ..), trivial⟩
      · exact v.flights f hf
    calls := fun c hc => by
      rcases List.mem_cons.1 hc with hc | hc
      · cases hc
      · exact v.calls c hc }

/-- Calls for which no errand is needed. -/
theorem call {c : Call} (v : Writes settings other assigned waiting flights cache log) (h : other c) :
    Writes settings other assigned waiting flights cache (.called c :: log) :=
  { v with
    calls := fun c' hc => by
      rcases List.mem_cons.1 hc with hc | hc
      · cases hc; exact .inl h
      · exact v.calls c' hc }

theorem assign (v : Writes settings other assigned waiting flights cache log) :
    Writes settings other (assigned ++ new) (waiting ++ new) flights cache log where
  waiting e he := (List.mem_append.1 he).elim
    (fun he => List.mem_append_left _ (v.waiting e he)) (List.mem_append_right _)
  flights f hf := (v.flights f hf).imp_left (List.mem_append_left _)
  marks key ends h := by
    obtain ⟨e, he, h⟩ := v.marks key ends h
    exact ⟨e, List.mem_append_left _ he, h⟩
  entries key text h := by
    obtain ⟨e, he, h⟩ := v.entries key text h
    exact ⟨e, List.mem_append_left _ he, h⟩
  calls c hc := (v.calls c hc).imp_right fun ⟨e, he, h⟩ => ⟨e, List.mem_append_left _ he, h⟩

/-- What an errand writes is its own. -/
theorem write {e : Errand} {cache' : Cache}
    (v : Writes settings other assigned waiting flights cache log) (he : e ∈ assigned)
    (h : Writing settings e cache cache') :
    Writes settings other assigned waiting flights cache' log := by
  cases h with
  | none => exact v
  | @mark window ends hw =>
    refine { v with marks := fun key ends' hk => ?_ }
    rw [Cache.mark?_setMark] at hk
    split at hk
    · next hkey => exact ⟨e, he, window, hw, hkey.symm⟩
    · exact v.marks key ends' hk
  | @entry time cap =>
    refine { v with entries := fun key text hk => ?_ }
    rw [Cache.entries_push] at hk
    split at hk
    · next hkey =>
      rcases List.mem_cons.1 (List.mem_of_mem_take hk) with rfl | hk
      · exact ⟨e, he, time, hkey, rfl⟩
      · exact v.entries key text (hkey ▸ hk)
    · exact v.entries key text hk

/-- An errand in flight goes on, and nothing else changes. -/
theorem turn {clock : ClockedCache} {s : Scene} {w : World} {out : Option Stage × Scene}
    (v : Writes settings other assigned waiting (f :: flights) clock.cache log)
    (hs : s.log = []) (hc : s.clock = clock) (ho : proceed settings w f.errand s f.stage = out) :
    Writes settings other assigned waiting (out.1.toList.map (⟨f.errand, ·⟩) ++ flights)
      out.2.clock.cache (out.2.log ++ log) := by
  obtain ⟨hf, hown⟩ := v.flights f (List.mem_cons_self ..)
  have t := ho ▸ proceed_turns (s := s) (w := w) hown
  have v' := v.write hf (hc ▸ t.writes)
  refine { v' with flights := fun g hg => ?_, calls := fun c hc => ?_ }
  · rcases List.mem_append.1 hg with hg | hg
    · obtain ⟨stage, hstage, rfl⟩ := List.mem_map.1 hg
      exact ⟨hf, t.owns stage (Option.mem_toList.1 hstage)⟩
    · exact v.flights g (List.mem_cons_of_mem _ hg)
  · rcases List.mem_append.1 hc with hc | hc
    · rcases t.asks c hc with hm | ha
      · rw [hs] at hm; cases hm
      · exact .inr ⟨f.errand, hf, ha⟩
    · exact v.calls c hc

variable {s t : State} {w : World} {worker : Nat} {m : Move}

/-- A move of a worker writes and asks what its errands call for. -/
theorem move (v : Writes settings other assigned s.waiting s.flights s.clock.cache s.log)
    (hr : ∀ token, other (.removeDevice token)) (h : s.step settings w worker m = some t) :
    Writes settings other assigned t.waiting t.flights t.clock.cache t.log := by
  cases State.Step.of_step h with
  | start hsw htw htf hclock hlog =>
    rw [hclock, hlog]
    exact (v.perm hsw .rfl).start.perm htw.symm htf.symm
  | turn _ _ _ ho hwaiting hsf htf hclock hlog =>
    rw [hclock, hlog]
    exact ((v.perm hwaiting.symm hsf).turn rfl rfl ho).perm .rfl htf.symm
  | take hwaiting hflights hclock hlog =>
    rw [hclock, hlog]
    exact (v.call (hr _)).perm hwaiting.symm hflights.symm
  | finish hwaiting hflights hclock hlog =>
    rw [hclock, hlog]
    exact v.perm hwaiting.symm hflights.symm

theorem assign_state {job : Job} {number : Nat}
    (v : Writes settings other assigned s.waiting s.flights s.clock.cache s.log)
    (hlt : worker < s.workers.length) :
    Writes settings other (assigned ++ job.errands number) (s.assign worker job number).waiting
      (s.assign worker job number).flights (s.assign worker job number).clock.cache
      (s.assign worker job number).log :=
  v.assign.perm (State.waiting_assign hlt job number).symm
    (State.flights_assign hlt job number).symm

end Writes

end Herald.Delivery
