import Herald.Proofs.Cache
import Herald.Proofs.Delivery.Writes

/-!
# What deliveries leave in the history

An errand that was served leaves one entry in the history of its user, if its notification belongs
there. The cache is asked once to keep it, and does so if its reply comes in time.

* `State.filings`: what a move does about the history.
* `Filed`, `Archived`: what was done for an errand at a stage, and for one that is over.
* `Archive`: how errands agree with what was done for them, and the cache with all of it;
  `Archive.move`, `Archive.assign_state` and `Archive.calls` keep it.
* `Kept`, `Archive.sound`: what was done for an errand, wherever it is.
-/

namespace Herald.Delivery

open Happening

/-! ## What is done about the history -/

/-- Something that is done about the history. -/
inductive Filing where
  /-- The cache is asked to keep an entry. -/
  | asked (e : Errand) (entry : StoredNotification)
  /-- An entry is put in front of the history. -/
  | kept (e : Errand) (entry : StoredNotification)

namespace Filing

/-- The errand for which it is done. -/
def errand : Filing → Errand
  | asked e _ | kept e _ => e

/-- The entry that it is about. -/
def entry : Filing → StoredNotification
  | asked _ entry | kept _ entry => entry

/-- What is put into the list of a key. -/
def text? (key : String) : Filing → Option String
  | kept e entry => if key = History.key e.user then some entry.encode else none
  | asked .. => none

/-- What the cache is asked for. -/
def request? (settings : Settings) : Filing → Option (String × Nat)
  | asked e _ => some (History.key e.user, settings.historyCap)
  | kept .. => none

end Filing

/-- The entry that a stage is about to keep. -/
def Stage.entry? : Stage → Option StoredNotification
  | .storing entry _ => some entry
  | _ => none

/-- The key and the length of a list in front of which the cache is asked to put an entry. -/
def Happening.push? : Happening → Option (String × Nat)
  | called (.pushEntry key cap) => some (key, cap)
  | _ => none

/-- What a turn of a flight does about the history. -/
def Flight.filing? (settings : Settings) (w : World) (s : Scene) (f : Flight) : Option Filing :=
  match f.stage with
  | .storing entry call => if call.answer.isOk then some (.kept f.errand entry) else none
  | stage => ((proceed settings w f.errand s stage).1.bind Stage.entry?).map (.asked f.errand)

/-- What a move of a worker does about the history. -/
def Worker.filings (settings : Settings) (w : World) (clock : ClockedCache) (k : Worker) (m : Move) :
    List Filing :=
  match k.step settings w clock m, m with
  | some _, .turn position =>
    (k.flights[position]?.bind (·.filing? settings w (k.scene clock))).toList
  | _, _ => []

/-- What a move of the worker at a position does about the history. -/
def State.filings (settings : Settings) (w : World) (s : State) (worker : Nat) (m : Move) :
    List Filing :=
  s.workers[worker]?.toList.flatMap (·.filings settings w s.clock m)

/-- What was done for the errand with a key. -/
def filingsOf (key : Nat × Nat) (filings : List Filing) : List Filing :=
  filings.filter (·.errand.key = key)

section

variable (settings : Settings) (worlds : World → Prop) (e : Errand)

/-- What is done for an errand that was served in a world and belongs in the history, latest first. -/
def filing (w : World) : List Filing :=
  if w.cache.lands settings.limit then [.kept e (e.entry w.time), .asked e (e.entry w.time)]
  else [.asked e (e.entry w.time)]

/-- A stage that keeps an entry keeps the errand's own. -/
def Stores : Stage → Prop
  | .storing entry call => ∃ w, worlds w ∧ entry = e.entry w.time ∧
      call.answer.isOk = w.cache.lands settings.limit ∧ e.notification.category.isStorable = true
  | _ => True

/-- What was done for an errand at a stage. -/
def Filed (filings : List Filing) (stage : Stage) : Prop :=
  Stores settings worlds e stage ∧ filings = (stage.entry?.map (.asked e)).toList

/-- An errand was served, and its notification belongs in the history. -/
def Due (r : Record) : Prop :=
  e.notification.category.isStorable = true ∧ ∃ tokens, r.answers = [.ok tokens]

/-- What was done for an errand that is over. -/
def Archived (filings : List Filing) (r : Record) : Prop :=
  Due e r ∧ (∃ w, worlds w ∧ filings = filing settings e w) ∨ ¬Due e r ∧ filings = []

/-- What was done for an errand at a stage, or for one that is over. -/
def Archives (filings : List Filing) (r : Record) : Option Stage → Prop
  | some stage => Filed settings worlds e filings stage
  | none => Archived settings worlds e filings r

end

variable {settings : Settings} {worlds : World → Prop} {w : World} {e : Errand} {s : Scene}
  {stage : Stage} {out : Option Stage × Scene} {r : Record}

/-! ## Turns -/

theorem isOk_start {ε α : Type} [OfFailure ε] (now : Nat) (limit : Limit) (operation : String)
    (reply : Reply ε α) : (Pending.start now limit operation reply).answer.isOk = reply.lands limit := by
  unfold Pending.start Reply.within Reply.lands
  split
  · next h => simp [h]
  · next h => simp [h, Except.isOk, Except.toBool]

/-! ### What comes next -/

theorem stores_store (hw : worlds w) : ∀ stage ∈ (store settings w e s).1, Stores settings worlds e stage := by
  unfold store
  split
  · next hs =>
    rintro _ ⟨⟩
    exact ⟨w, hw, rfl, isOk_start .., hs⟩
  · rintro _ ⟨⟩

theorem stores_record (hw : worlds w) :
    ∀ stage ∈ (record settings w e s).1, Stores settings worlds e stage := by
  unfold record
  split
  · exact stores_store hw
  · rintro _ ⟨⟩; trivial

theorem stores_check : ∀ stage ∈ (check settings w e s).1, Stores settings worlds e stage := by
  unfold check
  split <;> rintro _ ⟨⟩ <;> trivial

/-- A stage that keeps an entry comes to be when the errand has been served. -/
theorem stores_proceed (hw : worlds w) :
    ∀ next ∈ (proceed settings w e s stage).1, Stores settings worlds e next := by
  cases stage with
  | fresh => exact stores_check
  | checking window call =>
    simp only [proceed]
    split
    · rintro _ ⟨⟩; trivial
    · rintro _ ⟨⟩
  | lookingUp call =>
    simp only [proceed]
    split
    · rintro _ ⟨⟩
    · rintro _ ⟨⟩; trivial
  | sending sends =>
    simp only [proceed]
    split
    · exact stores_record hw
    · rintro _ ⟨⟩; trivial
  | recording window call => exact stores_store hw
  | storing entry call => rintro _ ⟨⟩

/-! ### What is not filed -/

theorem not_storable_of_store (h : (store settings w e s).1 = none) :
    e.notification.category.isStorable = false := by
  unfold store at h
  split at h
  · cases h
  · next hs => exact Bool.eq_false_iff.2 hs

theorem not_storable_of_record (h : (record settings w e s).1 = none) :
    e.notification.category.isStorable = false := by
  unfold record at h
  split at h
  · exact not_storable_of_store h
  · cases h

theorem log_conclude (hs : s.log = []) (h : Happening) :
    (conclude e (s.note h)).2.log = [.ended e] ++ [h] := by
  simp [conclude, Scene.note, hs]

/-- An errand that ends without an entry was not served, or its notification does not belong in the
history. -/
theorem not_due_of_proceed (hf : Fits settings worlds e r stage) (hs : s.log = [])
    (hn : stage.entry? = none) (h : (proceed settings w e s stage).1 = none) :
    ¬Due e (r ++ Record.of e.key (proceed settings w e s stage).2.log) := by
  rintro ⟨hst, tokens, ht⟩
  cases stage with
  | fresh =>
    simp only [proceed, check] at h
    split at h <;> cases h
  | checking window call =>
    obtain ⟨rfl, -⟩ := hf
    simp only [proceed] at h ht
    split at h
    · cases h
    · next hm =>
      rw [if_neg hm, log_conclude hs, Record.of_append, Record.of_checked, Record.of_ended] at ht
      cases ht
  | lookingUp call =>
    obtain ⟨verdicts, -, -, rfl⟩ := hf
    simp only [proceed] at h ht
    split at h
    · next cause hc =>
      rw [hc] at ht
      rw [log_conclude hs, Record.of_append, Record.of_found, Record.of_ended] at ht
      cases ht
    · cases h
  | sending sends =>
    simp only [proceed] at h
    split at h
    · rw [not_storable_of_record h] at hst; cases hst
    · cases h
  | recording window call => rw [not_storable_of_store h] at hst; cases hst
  | storing entry call => cases hn

/-- What is done for an errand by a turn fits the stage to which it comes, or its end. -/
theorem proceed_archives {filings : List Filing} (hw : worlds w) (hs : s.log = [])
    (hf : Fits settings worlds e r stage) (h : Filed settings worlds e filings stage) :
    Archives settings worlds e ((Flight.filing? settings w s ⟨e, stage⟩).toList ++ filings)
      (r ++ Record.of e.key (proceed settings w e s stage).2.log) (proceed settings w e s stage).1 := by
  obtain ⟨hst, rfl⟩ := h
  cases hn : stage.entry? with
  | none =>
    have hfiling : Flight.filing? settings w s ⟨e, stage⟩ =
        ((proceed settings w e s stage).1.bind Stage.entry?).map (.asked e) := by
      cases stage <;> first | rfl | cases hn
    have hnext : ∀ next ∈ (proceed settings w e s stage).1, Stores settings worlds e next :=
      stores_proceed hw
    have hend := not_due_of_proceed (w := w) hf hs hn
    rw [hfiling]
    cases hout : (proceed settings w e s stage).1 with
    | none => exact .inr ⟨hend hout, rfl⟩
    | some next =>
      refine ⟨hnext next hout, ?_⟩
      simp
  | some entry =>
    cases stage <;> cases hn
    next call =>
    obtain ⟨v, hv, rfl, hok, hstorable⟩ := hst
    obtain ⟨verdicts, tokens, replies, -, -, -, rfl⟩ := hf
    refine .inl ⟨⟨hstorable, tokens, ?_⟩, v, hv, ?_⟩
    · simp only [proceed]
      split <;> simp [conclude, Scene.note, Scene.write, hs, Record.append_def]
    · simp only [Flight.filing?, filing, hok]
      split <;> rfl

/-! ### The cache -/

/-- What a turn asks of the history and makes of it; `asked` is the entry that it asks to keep. -/
structure Requests (settings : Settings) (e : Errand) (s : Scene) (out : Option Stage × Scene) : Prop where
  entries : ∀ key, out.2.clock.cache.entries key = s.clock.cache.entries key
  requests : pick push? out.2.log = pick push? s.log ++
    (out.1.bind Stage.entry?).toList.map fun _ => (History.key e.user, settings.historyCap)

theorem Requests.note {h : Happening} (hh : h.push? = none) (k : Requests settings e (s.note h) out) :
    Requests settings e s out := by
  refine ⟨k.entries, ?_⟩
  rw [k.requests, Scene.note, pick_cons, hh, Option.toList_none, List.append_nil]

theorem Requests.call {c : Call} (hc : Happening.push? (.called c) = none) (hn : stage.entry? = none) :
    Requests settings e s (some stage, s.note (.called c)) :=
  .note hc ⟨fun _ => rfl, by simp [hn]⟩

theorem requests_conclude : Requests settings e s (conclude e s) :=
  .note (h := .ended e) rfl ⟨fun _ => rfl, (List.append_nil _).symm⟩

theorem requests_store : Requests settings e s (store settings w e s) := by
  unfold store
  split
  · refine ⟨fun _ => rfl, ?_⟩
    simp [Scene.note, push?, Stage.entry?]
  · exact requests_conclude

theorem requests_record : Requests settings e s (record settings w e s) := by
  unfold record
  split
  · exact requests_store
  · exact .call rfl rfl

theorem requests_lookUp : Requests settings e s (lookUp settings w e s) := .call rfl rfl

theorem requests_check : Requests settings e s (check settings w e s) := by
  unfold check
  split
  · exact requests_lookUp
  · exact .call rfl rfl

/-- A turn that does not keep an entry leaves the history alone. -/
theorem requests_proceed (hn : stage.entry? = none) : Requests settings e s (proceed settings w e s stage) := by
  cases stage with
  | fresh => exact requests_check
  | checking window call =>
    refine .note (h := .checked e (call.answer.map fun _ => s.clock.cache.isMarked s.now window.key))
      rfl ?_
    simp only [proceed]
    split
    · exact requests_lookUp
    · exact requests_conclude
  | lookingUp call =>
    refine .note (h := .found e call.answer) rfl ?_
    simp only [proceed]
    split
    · exact requests_conclude
    · refine ⟨fun key => ?_, ?_⟩
      · rw [(Send.facts_beginAll settings w e 0 _ _).2]
      · rw [Send.pick_beginAll (fun _ _ _ => rfl) (fun _ _ => rfl)]
        exact (List.append_nil _).symm
  | sending sends =>
    simp only [proceed]
    split
    · exact requests_record
    · refine ⟨fun key => ?_, ?_⟩
      · rw [(Send.facts_proceedAll e 0 sends s).2]
      · rw [Send.pick_proceedAll fun _ _ _ => rfl]
        exact (List.append_nil _).symm
  | recording window call =>
    simp only [proceed]
    split
    · exact ⟨(requests_store (s := s.write _)).entries, (requests_store (s := s.write _)).requests⟩
    · exact requests_store
  | storing entry call => cases hn

/-- What a turn does about the history is what is seen of it. -/
theorem proceed_files (settings : Settings) (w : World) (e : Errand) (s : Scene) (stage : Stage) :
    (∀ key, (s.clock.cache.entries key).length ≤ settings.historyCap →
      (proceed settings w e s stage).2.clock.cache.entries key =
        ((Flight.filing? settings w s ⟨e, stage⟩).toList.filterMap (Filing.text? key) ++
          s.clock.cache.entries key).take settings.historyCap) ∧
    pick push? (proceed settings w e s stage).2.log = pick push? s.log ++
      pick (Filing.request? settings) (Flight.filing? settings w s ⟨e, stage⟩).toList := by
  cases hn : stage.entry? with
  | none =>
    have hfiling : Flight.filing? settings w s ⟨e, stage⟩ =
        ((proceed settings w e s stage).1.bind Stage.entry?).map (.asked e) := by
      cases stage <;> first | rfl | cases hn
    obtain ⟨hentries, hrequests⟩ : Requests settings e s (proceed settings w e s stage) :=
      requests_proceed hn
    rw [hfiling]
    refine ⟨fun key hle => ?_, ?_⟩
    · rw [hentries]
      cases (proceed settings w e s stage).1.bind Stage.entry? <;>
        simp [List.filterMap_cons, Filing.text?, List.take_of_length_le hle]
    · rw [hrequests]
      cases (proceed settings w e s stage).1.bind Stage.entry? <;> simp [Filing.request?]
  | some entry =>
    cases stage <;> cases hn
    next call =>
    simp only [proceed, Flight.filing?]
    cases call.answer with
    | ok a =>
      refine ⟨fun key hle => ?_, ?_⟩
      · show (Cache.push _ _ _ _).entries key = _
        rw [Cache.entries_push]
        split
        · next hk => simp [Except.isOk, Except.toBool, Filing.text?, hk]
        · next hk => simp [Except.isOk, Except.toBool, Filing.text?, hk, List.take_of_length_le hle]
      · simp [Except.isOk, Except.toBool, conclude, Scene.note, Scene.write, push?, Filing.request?]
    | error cause =>
      refine ⟨fun key hle => ?_, ?_⟩
      · simp [Except.isOk, Except.toBool, conclude, Scene.note, List.take_of_length_le hle]
      · simp [Except.isOk, Except.toBool, conclude, Scene.note, push?]

/-! ## Runs -/

/-- How errands that were assigned agree with what was done about the history, and the cache with all of
it. -/
structure Archive (settings : Settings) (worlds : World → Prop) (filings : List Filing)
    (assigned waiting : List Errand) (flights : List Flight) (cache : Cache) (log : List Happening) :
    Prop where
  known : ∀ x ∈ filings, x.errand ∈ assigned
  fresh : ∀ e ∈ waiting, filingsOf e.key filings = []
  filed : ∀ f ∈ flights, Filed settings worlds f.errand (filingsOf f.errand.key filings) f.stage
  past : ∀ e ∈ pick ended? log,
    Archived settings worlds e (filingsOf e.key filings) (Record.of e.key log)
  entries : ∀ key, cache.entries key = (filings.filterMap (Filing.text? key)).take settings.historyCap
  requests : pick push? log = pick (Filing.request? settings) filings

namespace Archive

variable {filings new : List Filing} {assigned waiting waiting' : List Errand}
  {flights flights' : List Flight} {cache : Cache} {log : List Happening} {f : Flight}

theorem filingsOf_others {key : Nat × Nat} (h : ∀ x ∈ new, x.errand.key ≠ key) :
    filingsOf key (new ++ filings) = filingsOf key filings := by
  unfold filingsOf
  rw [List.filter_append, List.filter_eq_nil_iff.2 fun x hx => by simpa using h x hx, List.nil_append]

theorem filingsOf_own (h : ∀ x ∈ new, x.errand = e) :
    filingsOf e.key (new ++ filings) = new ++ filingsOf e.key filings := by
  unfold filingsOf
  rw [List.filter_append, List.filter_eq_self.2 fun x hx => by simp [h x hx]]

theorem errand_filing? {x : Filing} (h : f.filing? settings w s = some x) : x.errand = f.errand := by
  unfold Flight.filing? at h
  split at h
  · split at h <;> cases h
    rfl
  · obtain ⟨entry, -, rfl⟩ := Option.map_eq_some_iff.1 h
    rfl

theorem nil : Archive settings worlds [] [] [] [] {} [] where
  known _ h := absurd h List.not_mem_nil
  fresh _ h := absurd h List.not_mem_nil
  filed _ h := absurd h List.not_mem_nil
  past _ h := absurd h List.not_mem_nil
  entries _ := List.take_nil.symm
  requests := rfl

theorem perm (v : Archive settings worlds filings assigned waiting flights cache log)
    (hw : waiting.Perm waiting') (hf : flights.Perm flights') :
    Archive settings worlds filings assigned waiting' flights' cache log :=
  { v with
    fresh := fun e he => v.fresh e (hw.mem_iff.2 he)
    filed := fun f hf' => v.filed f (hf.mem_iff.2 hf') }

/-- What is written down besides, of no errand and without a request to the history. -/
theorem note {h : Happening} (v : Archive settings worlds filings assigned waiting flights cache log)
    (hp : h.push? = none) (he : h.ended? = none) (hr : ∀ key, Record.of key [h] = {}) :
    Archive settings worlds filings assigned waiting flights cache (h :: log) :=
  { v with
    past := fun e hm => by
      rw [pick_cons, he, Option.toList_none, List.append_nil] at hm
      rw [Record.of_cons, hr, Record.append_empty]
      exact v.past e hm
    requests := by rw [pick_cons, hp, Option.toList_none, List.append_nil, v.requests] }

theorem calls {calls : List Call}
    (v : Archive settings worlds filings assigned waiting flights cache log)
    (h : ∀ c ∈ calls, Happening.push? (.called c) = none) :
    Archive settings worlds filings assigned waiting flights cache
      ((calls.map .called).reverse ++ log) := by
  induction calls generalizing log with
  | nil => exact v
  | cons c calls ih =>
    rw [List.map_cons, List.reverse_cons, List.append_assoc]
    refine ih (v.note (h c (List.mem_cons_self ..)) rfl fun _ => Record.of_called c) fun c hc => ?_
    exact h c (List.mem_cons_of_mem _ hc)

theorem start (v : Archive settings worlds filings assigned (e :: waiting) flights cache log) :
    Archive settings worlds filings assigned waiting (⟨e, .fresh⟩ :: flights) cache (.began e :: log) :=
  note { v with
    fresh := fun e' he => v.fresh e' (List.mem_cons_of_mem _ he)
    filed := fun f hf => by
      rcases List.mem_cons.1 hf with rfl | hf
      · exact ⟨trivial, v.fresh e (List.mem_cons_self ..)⟩
      · exact v.filed f hf } rfl rfl fun _ => Record.of_began

theorem assign {new : List Errand} (v : Archive settings worlds filings assigned waiting flights cache log)
    (hn : ((assigned ++ new).map (·.key)).Nodup) :
    Archive settings worlds filings (assigned ++ new) (waiting ++ new) flights cache log :=
  { v with
    known := fun x hx => List.mem_append_left _ (v.known x hx)
    fresh := fun e he => by
      rcases List.mem_append.1 he with he | he
      · exact v.fresh e he
      · refine List.filter_eq_nil_iff.2 fun x hx hk => ?_
        rw [List.map_append] at hn
        exact (List.nodup_append.1 hn).2.2 _ (List.mem_map_of_mem (v.known x hx)) _
          (List.mem_map_of_mem he) (of_decide_eq_true hk) }

theorem take_append_take {α : Type} (l m : List α) (n : Nat) :
    (l ++ m.take n).take n = (l ++ m).take n := by
  rw [List.take_append, List.take_append, List.take_take, Nat.min_eq_left (Nat.sub_le ..)]

/-- An errand in flight goes on, and nothing else changes. -/
theorem turn {clock : ClockedCache}
    (v : Archive settings worlds filings assigned waiting (f :: flights) clock.cache log)
    (b : Books settings worlds assigned waiting (f :: flights) log)
    (hn : (assigned.map (·.key)).Nodup) (hw : worlds w) (hs : s.log = []) (hc : s.clock = clock)
    (ho : proceed settings w f.errand s f.stage = out) :
    Archive settings worlds ((f.filing? settings w s).toList ++ filings) assigned waiting
      (out.1.toList.map (⟨f.errand, ·⟩) ++ flights) out.2.clock.cache (out.2.log ++ log) := by
  subst ho hc
  have hfit := b.fits f (List.mem_cons_self ..)
  have harch := proceed_archives hw hs hfit (v.filed f (List.mem_cons_self ..))
  have hleads := proceed_leads (s := s) hw hfit
  obtain ⟨written, hl, honly, -⟩ := hleads
  obtain ⟨hentries, hrequests⟩ := proceed_files settings w f.errand s f.stage
  rw [hs, List.append_nil] at hl
  rw [hs, pick_nil, List.nil_append] at hrequests
  rw [← hl] at honly
  have hown : ∀ x ∈ (f.filing? settings w s).toList, x.errand = f.errand := fun x hx =>
    errand_filing? (Option.mem_toList.1 hx)
  have hothers {e : Errand} (he : e ∈ waiting ++ flights.map (·.errand) ++ pick ended? log) :
      filingsOf e.key ((f.filing? settings w s).toList ++ filings) = filingsOf e.key filings :=
    filingsOf_others fun x hx => by rw [hown x hx]; exact b.key_ne hn he
  rw [← filingsOf_own hown, ← Record.of_append] at harch
  obtain ⟨hfiled, hpast⟩ := b.turn_each (P := fun e => Archives settings worlds e
      (filingsOf e.key ((f.filing? settings w s).toList ++ filings))
      (Record.of e.key ((proceed settings w f.errand s f.stage).2.log ++ log))) hw hs harch
    (fun g hg => by
      rw [hothers (List.mem_append_left _ (List.mem_append_right _ (List.mem_map_of_mem hg)))]
      exact v.filed g (List.mem_cons_of_mem _ hg))
    (fun e he => by
      rw [hothers (List.mem_append_right _ he), b.record_others hn honly (List.mem_append_right _ he)]
      exact v.past e he)
  refine ⟨fun x hx => ?_, fun e he => ?_, hfiled, hpast, fun key => ?_, ?_⟩
  · rcases List.mem_append.1 hx with hx | hx
    · rw [hown x hx]
      exact b.placed_cons.mem_iff.1 (List.mem_cons_self ..)
    · exact v.known x hx
  · rw [hothers (List.mem_append_left _ (List.mem_append_left _ he))]
    exact v.fresh e he
  · rw [hentries key (by rw [v.entries]; exact List.length_take_le ..), v.entries, take_append_take,
      List.filterMap_append]
  · rw [pick_append, pick_append, v.requests, hrequests]

variable {t : State} {worker : Nat} {m : Move}

theorem filings_turn {s : State} {k : Worker} {position : Nat} (hk : s.workers[worker]? = some k)
    (hf : k.flights[position]? = some f) (hr : f.stage.isReady (k.scene s.clock) = true) :
    s.filings settings w worker (.turn position) =
      (f.filing? settings w (k.scene s.clock)).toList := by
  simp only [State.filings, hk, Option.toList_some, List.flatMap_cons, List.flatMap_nil,
    List.append_nil, Worker.filings, Worker.step, hf, hr, if_true, Option.bind_some]

/-- Only turns do something about the history. -/
theorem filings_nil {s : State} (hm : ∀ position, m ≠ .turn position) :
    s.filings settings w worker m = [] := by
  refine List.flatMap_eq_nil_iff.2 fun k _ => ?_
  unfold Worker.filings
  split
  · exact absurd rfl (hm _)
  · rfl

/-- A move of a worker is seen. -/
theorem move {s : State}
    (v : Archive settings worlds filings assigned s.waiting s.flights s.clock.cache s.log)
    (b : Books settings worlds assigned s.waiting s.flights s.log)
    (hn : (assigned.map (·.key)).Nodup) (hw : worlds w)
    (h : s.step settings w worker m = some t) :
    Archive settings worlds (s.filings settings w worker m ++ filings) assigned t.waiting t.flights
      t.clock.cache t.log := by
  cases State.Step.of_step h with
  | start hsw htw htf hclock hlog =>
    rw [filings_nil (m := .start) nofun, hclock, hlog]
    exact (v.perm hsw .rfl).start.perm htw.symm htf.symm
  | turn hk hf hready ho hwaiting hsf htf hclock hlog =>
    have b' := b.perm hwaiting.symm hsf
    rw [filings_turn hk hf hready, hclock, hlog]
    exact ((v.perm hwaiting.symm hsf).turn b' hn hw rfl rfl ho).perm .rfl htf.symm
  | take hwaiting hflights hclock hlog =>
    rw [filings_nil (m := .take) nofun, hclock, hlog]
    exact (v.note rfl rfl fun _ => Record.of_called _).perm hwaiting.symm hflights.symm
  | finish hwaiting hflights hclock hlog =>
    rw [filings_nil (m := .finish) nofun, hclock, hlog]
    exact v.perm hwaiting.symm hflights.symm

theorem assign_state {s : State} {job : Job} {number : Nat}
    (v : Archive settings worlds filings assigned s.waiting s.flights s.clock.cache s.log)
    (hn : ((assigned ++ job.errands number).map (·.key)).Nodup) (hlt : worker < s.workers.length) :
    Archive settings worlds filings (assigned ++ job.errands number)
      (s.assign worker job number).waiting (s.assign worker job number).flights
      (s.assign worker job number).clock.cache (s.assign worker job number).log :=
  (v.assign hn).perm (State.waiting_assign hlt job number).symm
    (State.flights_assign hlt job number).symm

end Archive

/-! ## Errands -/

/-- What was done for an errand, wherever it is. -/
inductive Kept (settings : Settings) (worlds : World → Prop) (e : Errand) (filings : List Filing)
    (r : Record) : Prop
  | early : r.endings = [] → filings = [] → Kept settings worlds e filings r
  | asked {w : World} : r.endings = [] → e.notification.category.isStorable = true → worlds w →
    filings = [.asked e (e.entry w.time)] → Kept settings worlds e filings r
  | over : r.endings = [e] → Archived settings worlds e filings r → Kept settings worlds e filings r

/-- Whatever was done for an errand is about an entry of its own. -/
theorem Kept.own {filings : List Filing} {x : Filing} (h : Kept settings worlds e filings r)
    (hx : x ∈ filings) : x.errand = e ∧ e.notification.category.isStorable = true ∧
      ∃ w, worlds w ∧ x.entry = e.entry w.time := by
  rcases h with ⟨-, rfl⟩ | ⟨-, hs, hw, rfl⟩ | ⟨-, ⟨⟨hs, -⟩, w, hw, rfl⟩ | ⟨-, rfl⟩⟩
  · cases hx
  · cases List.mem_singleton.1 hx
    exact ⟨rfl, hs, _, hw, rfl⟩
  · have hx : x = .kept e (e.entry w.time) ∨ x = .asked e (e.entry w.time) := by
      unfold filing at hx
      split at hx
      · simpa using hx
      · exact .inr (List.mem_singleton.1 hx)
    rcases hx with rfl | rfl <;> exact ⟨rfl, hs, w, hw, rfl⟩
  · cases hx

/-- What was done for an errand that was assigned. -/
theorem Archive.sound {filings : List Filing} {assigned waiting : List Errand} {flights : List Flight}
    {cache : Cache} {log : List Happening}
    (v : Archive settings worlds filings assigned waiting flights cache log)
    (b : Books settings worlds assigned waiting flights log) (he : e ∈ assigned) :
    Kept settings worlds e (filingsOf e.key filings) (Record.of e.key log) := by
  have hm := b.placed.mem_iff.2 he
  simp only [List.mem_append, List.mem_map] at hm
  rcases hm with (hw | ⟨f, hf, rfl⟩) | ho
  · exact .early (by rw [b.fresh e hw]) (v.fresh e hw)
  · have hends := endings_of_fits (b.fits f hf)
    obtain ⟨hstores, hfilings⟩ := v.filed f hf
    cases hn : f.stage.entry? with
    | none => exact .early hends (by rw [hfilings, hn]; rfl)
    | some entry =>
      rw [hn] at hfilings
      cases hstage : f.stage <;> rw [hstage] at hn hstores <;> cases hn
      obtain ⟨w, hw, rfl, -, hs⟩ := hstores
      exact .asked hends hs hw hfilings
  · exact .over (endings_of_over (b.past e ho)) (v.past e ho)

end Herald.Delivery
