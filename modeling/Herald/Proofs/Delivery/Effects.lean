import Herald.Proofs.Delivery.Attempts
import Herald.Proofs.Delivery.Journal

/-!
# What is done for each recipient

Errands share one cache and run side by side, but the journal of each is the one that it would have
alone. The cache holds what the changes in all journals make of it.

* `Diary`: how errands, the cache and the log agree with what was done; `Diary.move` and
  `Diary.assign` keep it.
* `Diary.frame`: what stays as it is.
* `effects_exact`: what is done for each recipient of a job, and what becomes of the cache.
-/

namespace Herald.Delivery

open Happening

/-! ## Diaries -/

/-- How errands that were assigned, the cache and the log agree with what was done, latest first. -/
structure Diary (settings : Settings) (initial : Cache) (deeds : List (Errand × Deed))
    (assigned waiting : List Errand) (flights : List Flight) (cache : Cache) (log : List Happening) :
    Prop where
  known : ∀ d ∈ deeds, d.1 ∈ assigned ∧ d.2.Owned settings d.1
  fresh : ∀ e ∈ waiting, Journal.of e.key deeds = []
  told : ∀ f ∈ flights, Journal.Told settings f.errand (Journal.of f.errand.key deeds) f.stage
  done : ∀ e ∈ pick ended? log, Journal.Done settings e (Journal.of e.key deeds)
  cache : cache = replay (deeds.map (·.2)) initial
  notes : pick Deed.served? log = pick (fun d => d.2.note?) deeds

namespace Diary

variable {settings : Settings} {worlds : World → Prop} {w : World} {initial cache : Cache}
  {deeds : List (Errand × Deed)} {assigned waiting waiting' : List Errand}
  {flights flights' : List Flight} {log : List Happening} {e : Errand} {f : Flight} {s : Scene}

theorem nil (initial : Cache) : Diary settings initial [] [] [] [] initial [] where
  known _ h := absurd h List.not_mem_nil
  fresh _ h := absurd h List.not_mem_nil
  told _ h := absurd h List.not_mem_nil
  done _ h := absurd h List.not_mem_nil
  cache := rfl
  notes := rfl

theorem perm (v : Diary settings initial deeds assigned waiting flights cache log)
    (hw : waiting.Perm waiting') (hf : flights.Perm flights') :
    Diary settings initial deeds assigned waiting' flights' cache log :=
  { v with
    fresh := fun e he => v.fresh e (hw.mem_iff.2 he)
    told := fun f hf' => v.told f (hf.mem_iff.2 hf') }

/-- What is written down besides. -/
theorem note {h : Happening} (v : Diary settings initial deeds assigned waiting flights cache log)
    (hs : Deed.served? h = none) (he : h.ended? = none) :
    Diary settings initial deeds assigned waiting flights cache (h :: log) :=
  { v with
    done := fun e hm => v.done e (by simpa [he] using hm)
    notes := by simpa [hs] using v.notes }

theorem start (v : Diary settings initial deeds assigned (e :: waiting) flights cache log) :
    Diary settings initial deeds assigned waiting (⟨e, .fresh⟩ :: flights) cache (.began e :: log) :=
  note { v with
    fresh := fun e' he => v.fresh e' (List.mem_cons_of_mem _ he)
    told := fun f hf => by
      rcases List.mem_cons.1 hf with rfl | hf
      · rw [v.fresh e (List.mem_cons_self ..)]
        exact .fresh
      · exact v.told f hf } rfl rfl

theorem assign {new : List Errand} (v : Diary settings initial deeds assigned waiting flights cache log)
    (hn : ((assigned ++ new).map (·.key)).Nodup) :
    Diary settings initial deeds (assigned ++ new) (waiting ++ new) flights cache log :=
  { v with
    known := fun d hd => (v.known d hd).imp_left (List.mem_append_left _)
    fresh := fun e he => by
      rcases List.mem_append.1 he with he | he
      · exact v.fresh e he
      · refine pick_eq_nil fun d hd => if_neg fun hk => ?_
        rw [List.map_append] at hn
        exact (List.nodup_append.1 hn).2.2 _ (List.mem_map_of_mem (v.known d hd).1) _
          (List.mem_map_of_mem he) hk }

/-- An errand in flight goes on, and nothing else changes. -/
theorem turn {clock : ClockedCache} {out : Option Stage × Scene}
    (v : Diary settings initial deeds assigned waiting (f :: flights) clock.cache log)
    (b : Books settings worlds assigned waiting (f :: flights) log)
    (hn : (assigned.map (·.key)).Nodup) (hw : worlds w) (hs : s.log = []) (hc : s.clock = clock)
    (ho : proceed settings w f.errand s f.stage = out) :
    Diary settings initial (((f.deeds settings w s).map (f.errand, ·)).reverse ++ deeds) assigned waiting
      (out.1.toList.map (⟨f.errand, ·⟩) ++ flights) out.2.clock.cache (out.2.log ++ log) := by
  subst ho hc
  have htold := v.told f (List.mem_cons_self ..)
  obtain ⟨hclock, new, hl, hstory⟩ := proceed_tells (w := w) (s := s) htold
  have hnew : (proceed settings w f.errand s f.stage).2.log = new := by
    rw [hl]
    exact (congrArg (new ++ ·) hs).trans (List.append_nil _)
  rw [← hnew, List.append_assoc, List.append_assoc, ← List.append_assoc (f.stage.landing _ _ _),
    ← Flight.deeds, ← Journal.of_own] at hstory
  have hothers {e : Errand} (he : e ∈ waiting ++ flights.map (·.errand) ++ pick ended? log) :
      Journal.of e.key (((f.deeds settings w s).map (f.errand, ·)).reverse ++ deeds) =
        Journal.of e.key deeds := Journal.of_others (b.key_ne hn he) ..
  obtain ⟨htells, hdone⟩ := b.turn_each (P := fun e => Journal.Story settings e
      (Journal.of e.key (((f.deeds settings w s).map (f.errand, ·)).reverse ++ deeds))) hw hs hstory
    (fun g hg => by
      rw [hothers (List.mem_append_left _ (List.mem_append_right _ (List.mem_map_of_mem hg)))]
      exact v.told g (List.mem_cons_of_mem _ hg))
    (fun e he => by
      rw [hothers (List.mem_append_right _ he)]
      exact v.done e he)
  refine ⟨fun d hd => ?_, fun e he => ?_, htells, hdone, ?_, ?_⟩
  · rcases List.mem_append.1 hd with hd | hd
    · obtain ⟨x, hx, rfl⟩ := List.mem_map.1 (List.mem_reverse.1 hd)
      exact ⟨b.placed_cons.mem_iff.1 (List.mem_cons_self ..), owned_deeds htold x hx⟩
    · exact v.known d hd
  · rw [hothers (List.mem_append_left _ (List.mem_append_left _ he))]
    exact v.fresh e he
  · have hdeeds : (f.deeds settings w s).map ((·.2) ∘ (f.errand, ·)) = f.deeds settings w s :=
      List.map_id _
    rw [hclock, List.map_append, List.map_reverse, List.map_map, hdeeds, replay_append, ← v.cache,
      replay_deeds]
    rfl
  · have hdeeds : pick (fun d => d.2.note?) ((f.deeds settings w s).map (f.errand, ·)).reverse =
        (f.deeds settings w s).filterMap Deed.note? := by
      simp [pick, List.filterMap_map]
    rw [pick_append, pick_append, v.notes, hdeeds, filterMap_note?_deeds]

variable {t : State} {worker : Nat} {m : Move}

theorem deeds_turn {s : State} {k : Worker} {position : Nat} (hk : s.workers[worker]? = some k)
    (hf : k.flights[position]? = some f) (hr : f.stage.isReady (k.scene s.clock) = true) :
    s.deeds settings w worker (.turn position) =
      ((f.deeds settings w (k.scene s.clock)).map (f.errand, ·)).reverse := by
  simp only [State.deeds, hk, Option.toList_some, List.flatMap_cons, List.flatMap_nil,
    List.append_nil, Worker.deeds, Worker.step, hf, hr, if_true]

/-- Only turns do something for errands. -/
theorem deeds_nil {s : State} (hm : ∀ position, m ≠ .turn position) :
    s.deeds settings w worker m = [] := by
  refine List.flatMap_eq_nil_iff.2 fun k _ => ?_
  unfold Worker.deeds
  split
  · exact absurd rfl (hm _)
  · rfl

/-- A move of a worker is in the diary. -/
theorem move {s : State}
    (v : Diary settings initial deeds assigned s.waiting s.flights s.clock.cache s.log)
    (b : Books settings worlds assigned s.waiting s.flights s.log)
    (hn : (assigned.map (·.key)).Nodup) (hw : worlds w) (h : s.step settings w worker m = some t) :
    Diary settings initial (s.deeds settings w worker m ++ deeds) assigned t.waiting t.flights
      t.clock.cache t.log := by
  cases State.Step.of_step h with
  | start hsw htw htf hclock hlog =>
    rw [deeds_nil (m := .start) nofun, hclock, hlog]
    exact (v.perm hsw .rfl).start.perm htw.symm htf.symm
  | turn hk hf hready ho hwaiting hsf htf hclock hlog =>
    have b' := b.perm hwaiting.symm hsf
    rw [deeds_turn hk hf hready, hclock, hlog]
    exact ((v.perm hwaiting.symm hsf).turn b' hn hw rfl rfl ho).perm .rfl htf.symm
  | take hwaiting hflights hclock hlog =>
    rw [deeds_nil (m := .take) nofun, hclock, hlog]
    exact (v.note rfl rfl).perm hwaiting.symm hflights.symm
  | finish hwaiting hflights hclock hlog =>
    rw [deeds_nil (m := .finish) nofun, hclock, hlog]
    exact v.perm hwaiting.symm hflights.symm

theorem assign_state {s : State} {job : Job} {number : Nat}
    (v : Diary settings initial deeds assigned s.waiting s.flights s.clock.cache s.log)
    (hn : ((assigned ++ job.errands number).map (·.key)).Nodup) (hlt : worker < s.workers.length) :
    Diary settings initial deeds (assigned ++ job.errands number)
      (s.assign worker job number).waiting (s.assign worker job number).flights
      (s.assign worker job number).clock.cache (s.assign worker job number).log :=
  (v.assign hn).perm (State.waiting_assign hlt job number).symm
    (State.flights_assign hlt job number).symm

/-! ### What stays -/

/-- A mark stays unless it is the cooldown of an errand. -/
theorem mark?_eq (v : Diary settings initial deeds assigned waiting flights cache log) {key : String}
    (h : ∀ e ∈ assigned, ∀ window, e.window? settings.cooldowns = some window → window.key ≠ key) :
    cache.mark? key = initial.mark? key := by
  rw [v.cache]
  refine replay_stays (g := (·.mark? key)) (fun d hd c => ?_) initial
  obtain ⟨⟨e, d⟩, hm, rfl⟩ := List.mem_map.1 hd
  obtain ⟨he, hown⟩ := v.known _ hm
  cases d with
  | changed now x =>
    cases x with
    | mark key' ends =>
      obtain ⟨window, hw, rfl⟩ := hown
      exact (Cache.mark?_setMark ..).trans (if_neg (h e he window hw).symm)
    | push => rfl
  | noted | settled | missed => rfl

/-- A history stays unless it is the one of a user to be notified. -/
theorem entries_eq (v : Diary settings initial deeds assigned waiting flights cache log) {key : String}
    (h : ∀ e ∈ assigned, History.key e.user ≠ key) : cache.entries key = initial.entries key := by
  rw [v.cache]
  refine replay_stays (g := (·.entries key)) (fun d hd c => ?_) initial
  obtain ⟨⟨e, d⟩, hm, rfl⟩ := List.mem_map.1 hd
  obtain ⟨he, hown⟩ := v.known _ hm
  cases d with
  | changed now x =>
    cases x with
    | mark => rfl
    | push key' text cap =>
      obtain rfl : key' = History.key e.user := hown
      exact (Cache.entries_push ..).trans (if_neg (h e he).symm)
  | noted | settled | missed => rfl

/-- The cooldowns and the history of a user who is not to be notified stay. -/
theorem frame (v : Diary settings initial deeds assigned waiting flights cache log) {user : UserId}
    (h : ∀ e ∈ assigned, e.user ≠ user) :
    cache.entries (History.key user) = initial.entries (History.key user) ∧
      ∀ c context, cache.mark? (Cooldown.key user c context) =
        initial.mark? (Cooldown.key user c context) := by
  refine ⟨v.entries_eq fun e he hk => h e he (History.key_inj hk), fun c context => ?_⟩
  refine v.mark?_eq fun e he window hw hk => ?_
  obtain ⟨c', context', -, -, rfl⟩ := Cooldown.window?_eq_some.1 hw
  exact h e he (Cooldown.key_inj hk).1

end Diary

/-! ## Runs -/

namespace State

variable {settings : Settings} {s t : State} {acts : List Act}

/-- The diary along a run. -/
theorem Run.diary (run : Run settings s acts t) (h : s.New)
    (hn : ((errandsOf (pick Act.job? acts)).map (·.key)).Nodup) :
    Diary settings s.clock.cache (seen (act settings) (Act.deeds settings) s acts)
      (errandsOf (pick Act.job? acts)) t.waiting t.flights t.clock.cache t.log := by
  induction run with
  | refl =>
    rw [h.waiting, h.flights, h.unwritten]
    exact .nil _
  | @step acts t u a run e ih =>
    rw [Trace.seen_cons run]
    cases a with
    | assign worker job number =>
      simp only [act, Option.ite_none_right_eq_some, Option.some.injEq] at e
      obtain ⟨hlt, rfl⟩ := e
      simp only [pick_cons, Act.job?, Option.toList_some, errandsOf_append,
        errandsOf_singleton] at hn ⊢
      have hn' := hn
      rw [List.map_append] at hn'
      exact (ih (List.nodup_append.1 hn').1).assign_state hn hlt
    | move w worker m =>
      simp only [pick_cons, Act.job?, Option.toList_none, List.append_nil] at hn ⊢
      have b := Run.books (fun _ => True) run h (fun _ _ _ _ => trivial) hn
      exact (ih hn).move b hn trivial e
    | pass time =>
      simp only [pick_cons, Act.job?, Option.toList_none, List.append_nil] at hn ⊢
      cases e
      exact ih hn

/-- However things have gone, they can go on until no worker has a job. -/
theorem Ends.exists_run (h : Ends settings s) (w : World) :
    ∃ acts t, Run settings s acts t ∧ t.isBusy = false ∧ pick Act.job? acts = [] := by
  induction h with
  | idle hb => exact ⟨[], _, .refl, hb, rfl⟩
  | @go s hstep _ ih =>
    obtain ⟨time, worker, m, t, hs⟩ := hstep w
    obtain ⟨acts, u, run, hb, hj⟩ := ih t ⟨time, w, worker, m, hs⟩
    have hfirst : Run settings s [.move w worker m, .pass time] t := .step _ (.step _ .refl rfl) hs
    exact ⟨_, u, hfirst.trans run, hb, by simp [hj, Act.job?]⟩

/-- When no worker has a job, all errands are over. -/
theorem Run.done (run : Run settings s acts t) (h : s.New)
    (hn : ((errandsOf (pick Act.job? acts)).map (·.key)).Nodup) (hb : t.isBusy = false) {e : Errand}
    (he : e ∈ errandsOf (pick Act.job? acts)) : Journal.Done settings e
      (Journal.of e.key (seen (act settings) (Act.deeds settings) s acts)) := by
  have b := Run.books (fun _ => True) run h (fun _ _ _ _ => trivial) hn
  have hp := b.placed
  rw [waiting_of_idle hb, flights_of_idle hb] at hp
  exact (run.diary h hn).done e (hp.mem_iff.2 he)

end State

/-- What is done for each recipient of each job, at every moment of a run and in the end, whatever the
cache holds at first. Jobs are told apart by the numbers that they were given.

What is done for a recipient is the beginning of what is done for one that is over; it is all of it
when the worker has no job any more, and every worker comes to have none. A recipient is over in one
of three ways. The cooldown suppresses the messages: nothing is asked after the check. The lookup of
the devices fails: nothing is asked after it. Or the attempts at all devices come to their end, which
may be none and may all fail; then the cooldown is recorded once, if there is one that applies, and
one entry is kept, if the notification belongs in the history. Each of the two takes effect if the
cache replies in time and without a failure, whatever becomes of the other. This holds of each
recipient whatever is done for the others.

What is written down of errands is what was done for them. The cache holds what it held at first, with
the changes that were made, in order, and each of them is to the cooldown or to the history of the
recipient for whom it was made. So the cooldowns and the histories of all other users stay. -/
theorem effects_exact {settings : Settings} {s t : State} {acts : List Act}
    (run : State.Run settings s acts t) (fresh : s.New)
    (distinct : ((pick Act.job? acts).map (·.1)).Nodup) :
    let deeds := seen (State.act settings) (Act.deeds settings) s acts
    (∀ worker job number, .assign worker job number ∈ acts → ∀ e ∈ job.errands number,
      (∃ rest, Journal.Done settings e (Journal.of e.key deeds ++ rest)) ∧
      ∀ k, t.workers[worker]? = some k → k.isBusy = false →
        Journal.Done settings e (Journal.of e.key deeds)) ∧
    t.Ends settings ∧
    pick Deed.served? t.log = pick (fun d => d.2.note?) deeds ∧
    t.clock.cache = replay (deeds.map (·.2)) s.clock.cache ∧
    (∀ d ∈ deeds, d.2.Owned settings d.1 ∧
      ∃ worker job number, .assign worker job number ∈ acts ∧ d.1 ∈ job.errands number) ∧
    ∀ user, (∀ worker job number, .assign worker job number ∈ acts →
        ∀ target ∈ job.targets, target.user ≠ user) →
      t.clock.cache.entries (History.key user) = s.clock.cache.entries (History.key user) ∧
      ∀ c context, t.clock.cache.mark? (Cooldown.key user c context) =
        s.clock.cache.mark? (Cooldown.key user c context) := by
  intro deeds
  have hn := nodup_keys distinct
  have v := run.diary fresh hn
  have hends : t.Ends settings := State.ends (run.queued fresh)
  have hassigned : ∀ e ∈ errandsOf (pick Act.job? acts),
      ∃ worker job number, .assign worker job number ∈ acts ∧ e ∈ job.errands number := by
    intro e he
    obtain ⟨⟨number, job⟩, hj, he⟩ := List.mem_flatMap.1 he
    obtain ⟨a, ha, hj⟩ := mem_pick.1 hj
    cases a <;> cases hj
    exact ⟨_, _, _, ha, he⟩
  refine ⟨fun worker job number ha e he => ⟨?_, fun k hk hb => ?_⟩, hends, v.notes, v.cache,
    fun d hd => ⟨(v.known d hd).2, hassigned d.1 (v.known d hd).1⟩, fun user hu => v.frame ?_⟩
  · -- The run goes on until the errand is over, and its journal only grows.
    obtain ⟨acts', u, run', hb, hj⟩ := hends.exists_run ⟨fun _ => .now [], fun _ _ => .now (), .now (),
      .now (), 0⟩
    have hjobs : pick Act.job? (acts' ++ acts) = pick Act.job? acts := by rw [pick_append, hj, List.append_nil]
    have hd := State.Run.done (run.trans run') fresh (hjobs ▸ hn) hb
      (hjobs ▸ mem_errandsOf_assigned ha he)
    rw [Trace.seen_append run, Journal.of, pick_append] at hd
    exact ⟨_, hd⟩
  · exact v.done e ((run.home fresh hn worker job number ha e he).past hk hb)
  · intro e he
    obtain ⟨worker, job, number, ha, he⟩ := hassigned e he
    exact hu worker job number ha _ (List.mem_of_getElem? (Job.mem_errands.1 he).2.2)

/-- One user of a job at a time. -/
def welcomeSettings : Settings := ⟨⟨1000, 0⟩, .ofMillis 10, 1, 5⟩

/-- Three users are welcomed to a room. -/
def threeWelcomes : Job where
  targets := [.withDefaults 1, .withDefaults 2, .withDefaults 3]
  notification := ⟨.welcomeRoom, ⟨"", []⟩, ∅, some "room", none⟩

/-- The second user's lookup overruns, and the others have one device, which is dead. -/
def welcomeWorld : World where
  devices user := if user = 2 then ⟨20, .ok ["b"]⟩ else .now ["a"]
  gateway _ _ := ⟨0, .error .unregistered⟩
  cache := .now ()
  removal := .now ()
  time := 0

/-- A worker serves the three users, one after the other, and the cache is out of order when the
cooldown of the last one is recorded. Latest first. -/
def threeServed : List Act :=
  let outage : World := { welcomeWorld with cache := ⟨0, .error (.reported "down")⟩ }
  [.move welcomeWorld 0 (.turn 0), .move welcomeWorld 0 (.turn 0), .move outage 0 (.turn 0),
    .move welcomeWorld 0 (.turn 0), .move welcomeWorld 0 (.turn 0), .move welcomeWorld 0 (.turn 0),
    .move welcomeWorld 0 .start, .move welcomeWorld 0 (.turn 0), .pass 10,
    .move welcomeWorld 0 (.turn 0), .move welcomeWorld 0 (.turn 0), .move welcomeWorld 0 .start,
    .move welcomeWorld 0 (.turn 0), .move welcomeWorld 0 (.turn 0), .move welcomeWorld 0 .start,
    .assign 0 threeWelcomes 7]

/-- The cooldown of the first user has not run out. -/
def threeAtFirst : State where
  clock := ⟨0, { marks := [(Cooldown.key 1 .roomActivity "room", 5)] }⟩
  workers := [{ sink := .create 1 }]

/-- The first user is suppressed and the second one is not reached. The record of the third one fails,
and the entry is kept all the same. -/
theorem effects_exact_threeWelcomes : ∃ t, State.Run welcomeSettings threeAtFirst threeServed t ∧
    let journal (e : Errand) := Journal.of e.key (seen (State.act welcomeSettings)
      (Act.deeds welcomeSettings) threeAtFirst threeServed)
    (∀ e ∈ threeWelcomes.errands 7, Journal.Done welcomeSettings e (journal e)) ∧
    (threeWelcomes.errands 7).map (fun e => (journal e).length) = [3, 5, 12] ∧
    t.clock.cache.marks = threeAtFirst.clock.cache.marks ∧
    (t.clock.cache.entries (History.key 3)).length = 1 ∧
    t.clock.cache.entries (History.key 4) = [] := by
  obtain ⟨t, ht⟩ : ∃ t, play (State.act welcomeSettings) threeAtFirst threeServed = some t := ⟨_, rfl⟩
  have hnew : State.New threeAtFirst :=
    ⟨rfl, rfl, by simp [threeAtFirst, Cleanup.Sink.create, Channel.create]⟩
  obtain ⟨hdone, -, -, -, -, hframe⟩ :=
    effects_exact (trace_iff.2 ht) hnew (by simp [threeServed, Act.job?])
  have hassigned : .assign 0 threeWelcomes 7 ∈ threeServed := List.mem_of_getLast? rfl
  obtain ⟨k, hk, hb⟩ : ∃ k, t.workers[0]? = some k ∧ k.isBusy = false := by
    cases ht; exact ⟨_, rfl, rfl⟩
  refine ⟨t, trace_iff.2 ht, fun e he => (hdone 0 _ 7 hassigned e he).2 k hk hb, rfl, ?_, ?_, ?_⟩
  · cases ht; rfl
  · cases ht; rfl
  · refine (hframe 4 ?_).1
    intro worker job number ha
    obtain ⟨rfl, rfl, rfl⟩ : worker = 0 ∧ job = threeWelcomes ∧ number = 7 := by
      simpa [threeServed] using ha
    decide

end Herald.Delivery
