import Herald.Proofs.Delivery.Course

/-!
# The books of deliveries

The errands that were assigned are those that have not started, those that are in flight and those
that are over, and the record of each tells how far it has come. No two of them share a key, so that
the turns of one errand leave the records of all others as they are.

* `Books`: what holds of errands and their log; `Books.start`, `Books.turn`, `Books.call` and
  `Books.assign` keep it.
* `Books.turn_each`: what holds of errands after a turn.
-/

namespace Herald.Delivery

open Happening

/-- How errands that were assigned agree with what is written down about them. -/
structure Books (settings : Settings) (worlds : World → Prop) (assigned waiting : List Errand)
    (flights : List Flight) (log : List Happening) : Prop where
  placed : (waiting ++ flights.map (·.errand) ++ pick ended? log).Perm assigned
  fresh : ∀ e ∈ waiting, Record.of e.key log = {}
  fits : ∀ f ∈ flights, Fits settings worlds f.errand (Record.of f.errand.key log) f.stage
  past : ∀ e ∈ pick ended? log, Over settings worlds e (Record.of e.key log)
  known : ∀ h ∈ log, ∀ e, h.errand? = some e → e ∈ assigned

namespace Books

variable {settings : Settings} {worlds : World → Prop} {assigned waiting waiting' new : List Errand}
  {flights flights' : List Flight} {log : List Happening}

theorem nil {log : List Happening} (h : ∀ a ∈ log, a.errand? = none) :
    Books settings worlds [] [] [] log := by
  have hn : pick ended? log = [] := pick_eq_nil fun a ha => by
    cases a with
    | ended e => cases h _ ha
    | _ => rfl
  refine ⟨by simp [hn], fun e he => absurd he List.not_mem_nil,
    fun f hf => absurd hf List.not_mem_nil, ?_, ?_⟩
  · intro e he
    rw [hn] at he; cases he
  · intro a ha e he
    rw [h a ha] at he; cases he

theorem perm (b : Books settings worlds assigned waiting flights log) (hw : waiting.Perm waiting')
    (hf : flights.Perm flights') : Books settings worlds assigned waiting' flights' log :=
  ⟨(((hw.append (hf.map _)).append_right _).symm).trans b.placed,
    fun e he => b.fresh e (hw.mem_iff.2 he), fun f he => b.fits f (hf.mem_iff.2 he), b.past, b.known⟩

/-- What is written down about a call is in no record. -/
theorem call (b : Books settings worlds assigned waiting flights log) (c : Call) :
    Books settings worlds assigned waiting flights (.called c :: log) := by
  have hr (key : Nat × Nat) : Record.of key (.called c :: log) = Record.of key log := by
    rw [Record.of_cons, Record.of_called, Record.append_empty]
  refine ⟨by simpa [ended?] using b.placed, fun e he => (hr _).trans (b.fresh e he),
    fun f he => hr _ ▸ b.fits f he, ?_, ?_⟩
  · intro e he
    rw [hr]; exact b.past e (by simpa [ended?] using he)
  · intro h hm e he
    rcases List.mem_cons.1 hm with rfl | hm
    · cases he
    · exact b.known h hm e he

theorem assign (b : Books settings worlds assigned waiting flights log)
    (hn : ((assigned ++ new).map (·.key)).Nodup) :
    Books settings worlds (assigned ++ new) (waiting ++ new) flights log := by
  refine ⟨?_, ?_, b.fits, b.past,
    fun h hm e he => List.mem_append_left _ (b.known h hm e he)⟩
  · have hp := b.placed.append_right new
    simp only [List.append_assoc] at hp ⊢
    exact (List.Perm.append_left _ (List.perm_append_comm.trans (by simp))).trans hp
  · intro e he
    rcases List.mem_append.1 he with he | he
    · exact b.fresh e he
    · rw [List.map_append] at hn
      apply Record.of_others
      intro h hm e' he' hk
      exact (List.nodup_append.1 hn).2.2 _ (List.mem_map_of_mem (b.known h hm e' he')) _
        (List.mem_map_of_mem he) hk

section

variable {e : Errand}

theorem start (b : Books settings worlds assigned (e :: waiting) flights log) :
    Books settings worlds assigned waiting (⟨e, .fresh⟩ :: flights) (.began e :: log) := by
  have hr (key : Nat × Nat) : Record.of key (.began e :: log) = Record.of key log := by
    rw [Record.of_cons, Record.of_began, Record.append_empty]
  refine ⟨?_, ?_, ?_, ?_, ?_⟩
  · have hp := @List.perm_middle _ e waiting (flights.map (·.errand) ++ pick ended? log)
    simpa [ended?] using hp.trans (by simpa using b.placed)
  · intro e' he
    rw [hr]; exact b.fresh e' (List.mem_cons_of_mem _ he)
  · intro f hf
    rw [hr]
    rcases List.mem_cons.1 hf with rfl | hf
    · exact b.fresh e (List.mem_cons_self ..)
    · exact b.fits f hf
  · intro e' he
    rw [hr]; exact b.past e' (by simpa [ended?] using he)
  · intro h hm e' he
    rcases List.mem_cons.1 hm with rfl | hm
    · cases he
      exact b.placed.mem_iff.1 (by simp)
    · exact b.known h hm e' he

end

/-! ## Turns -/

section

variable {f : Flight} {written : List Happening}

/-- The errand of a flight, and all others. -/
theorem placed_cons (b : Books settings worlds assigned waiting (f :: flights) log) :
    (f.errand :: (waiting ++ flights.map (·.errand) ++ pick ended? log)).Perm assigned := by
  have hp := @List.perm_middle _ f.errand waiting (flights.map (·.errand) ++ pick ended? log)
  simpa using hp.symm.trans (by simpa using b.placed)

/-- The others have other keys. -/
theorem key_ne (b : Books settings worlds assigned waiting (f :: flights) log)
    (hn : (assigned.map (·.key)).Nodup) {e : Errand}
    (he : e ∈ waiting ++ flights.map (·.errand) ++ pick ended? log) : f.errand.key ≠ e.key := by
  have hd := (b.placed_cons.map (·.key)).nodup_iff.2 hn
  rw [List.map_cons] at hd
  exact fun hk => (List.nodup_cons.1 hd).1 (hk ▸ List.mem_map_of_mem he)

/-- The records of the others stay. -/
theorem record_others (b : Books settings worlds assigned waiting (f :: flights) log)
    (hn : (assigned.map (·.key)).Nodup) (ho : Only f.errand written) {e : Errand}
    (he : e ∈ waiting ++ flights.map (·.errand) ++ pick ended? log) :
    Record.of e.key (written ++ log) = Record.of e.key log := by
  rw [Record.of_append, ho.of_others (b.key_ne hn he), Record.append_empty]

theorem known_append (b : Books settings worlds assigned waiting (f :: flights) log)
    (ho : Only f.errand written) :
    ∀ h ∈ written ++ log, ∀ e, h.errand? = some e → e ∈ assigned := by
  intro h hm e he
  rcases List.mem_append.1 hm with hm | hm
  · exact ho h hm e he ▸ b.placed_cons.mem_iff.1 (List.mem_cons_self ..)
  · exact b.known h hm e he

/-- An errand comes to another stage. -/
theorem advance {stage : Stage} (b : Books settings worlds assigned waiting (f :: flights) log)
    (hn : (assigned.map (·.key)).Nodup) (ho : Only f.errand written)
    (he : pick ended? written = [])
    (hf : Fits settings worlds f.errand
      (Record.of f.errand.key log ++ Record.of f.errand.key written) stage) :
    Books settings worlds assigned waiting (⟨f.errand, stage⟩ :: flights) (written ++ log) := by
  have hpick : pick ended? (written ++ log) = pick ended? log := by simp [he]
  refine ⟨?_, ?_, ?_, ?_, b.known_append ho⟩
  · rw [hpick]; exact b.placed
  · intro e he
    rw [b.record_others hn ho (by simp [he])]; exact b.fresh e he
  · intro g hg
    rcases List.mem_cons.1 hg with rfl | hg
    · rw [Record.of_append]; exact hf
    · have hm : g.errand ∈ flights.map (·.errand) := List.mem_map_of_mem hg
      rw [b.record_others hn ho (List.mem_append_left _ (List.mem_append_right _ hm))]
      exact b.fits g (List.mem_cons_of_mem _ hg)
  · intro e he
    rw [hpick] at he
    rw [b.record_others hn ho (by simp [he])]
    exact b.past e he

/-- An errand comes to its end. -/
theorem conclude (b : Books settings worlds assigned waiting (f :: flights) log)
    (hn : (assigned.map (·.key)).Nodup) (ho : Only f.errand written)
    (he : pick ended? written = [f.errand])
    (hf : Over settings worlds f.errand
      (Record.of f.errand.key log ++ Record.of f.errand.key written)) :
    Books settings worlds assigned waiting flights (written ++ log) := by
  have hpick : pick ended? (written ++ log) = pick ended? log ++ [f.errand] := by simp [he]
  refine ⟨?_, ?_, ?_, ?_, b.known_append ho⟩
  · refine List.Perm.trans ?_ b.placed_cons
    rw [hpick, ← List.append_assoc]
    exact List.perm_append_singleton _ _
  · intro e he
    rw [b.record_others hn ho (by simp [he])]; exact b.fresh e he
  · intro g hg
    have hm : g.errand ∈ flights.map (·.errand) := List.mem_map_of_mem hg
    rw [b.record_others hn ho (List.mem_append_left _ (List.mem_append_right _ hm))]
    exact b.fits g (List.mem_cons_of_mem _ hg)
  · intro e he
    rw [hpick] at he
    rcases List.mem_append.1 he with he | he
    · rw [b.record_others hn ho (by simp [he])]; exact b.past e he
    · rw [List.mem_singleton.1 he, Record.of_append]; exact hf

end

/-- An errand in flight goes on, and nothing else changes. -/
theorem turn {f : Flight} {s : Scene} {w : World} {out : Option Stage × Scene}
    (b : Books settings worlds assigned waiting (f :: flights) log)
    (hn : (assigned.map (·.key)).Nodup) (hw : worlds w) (hs : s.log = [])
    (ho : proceed settings w f.errand s f.stage = out) :
    Books settings worlds assigned waiting (out.1.toList.map (⟨f.errand, ·⟩) ++ flights)
      (out.2.log ++ log) := by
  have hf := b.fits f (List.mem_cons_self ..)
  have hleads := ho ▸ proceed_leads (s := s) hw hf
  have hended := hleads.ended (endings_of_fits hf)
  obtain ⟨written, hl, honly, hc⟩ := hleads
  rw [hs, List.append_nil] at hl
  rw [hs, hl, pick_nil, List.nil_append] at hended
  rw [hl]
  cases hout : out.1 with
  | some stage =>
    rw [hout] at hc hended
    exact b.advance hn honly hended hc
  | none =>
    rw [hout] at hc hended
    exact b.conclude hn honly hended hc

/-- What a turn brings about for its errand, and what stays so for those in flight and those that are over,
holds of all of them. -/
theorem turn_each {f : Flight} {s : Scene} {w : World} {P : Errand → Option Stage → Prop}
    (b : Books settings worlds assigned waiting (f :: flights) log) (hw : worlds w) (hs : s.log = [])
    (hown : P f.errand (proceed settings w f.errand s f.stage).1)
    (hflights : ∀ g ∈ flights, P g.errand (some g.stage)) (hpast : ∀ e ∈ pick ended? log, P e none) :
    (∀ g ∈ (proceed settings w f.errand s f.stage).1.toList.map (⟨f.errand, ·⟩) ++ flights,
      P g.errand (some g.stage)) ∧
    ∀ e ∈ pick ended? ((proceed settings w f.errand s f.stage).2.log ++ log), P e none := by
  have hfit := b.fits f (List.mem_cons_self ..)
  have hended := (proceed_leads (s := s) hw hfit).ended (endings_of_fits hfit)
  rw [hs, pick_nil, List.nil_append] at hended
  generalize proceed settings w f.errand s f.stage = out at hown hended ⊢
  refine ⟨fun g hg => ?_, fun e he => ?_⟩
  · rcases List.mem_append.1 hg with hg | hg
    · obtain ⟨stage, hstage, rfl⟩ := List.mem_map.1 hg
      rw [Option.mem_toList.1 hstage] at hown
      exact hown
    · exact hflights g hg
  · rw [pick_append, hended] at he
    rcases List.mem_append.1 he with he | he
    · exact hpast e he
    · cases hout : out.1 with
      | some stage => rw [hout] at he; cases he
      | none =>
        rw [hout] at he hown
        rw [List.mem_singleton.1 he]
        exact hown

end Books

end Herald.Delivery
