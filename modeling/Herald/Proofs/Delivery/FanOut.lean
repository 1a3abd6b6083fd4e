import Herald.Proofs.Delivery.Attempts

/-!
# How many recipients are served at the same time

A worker serves the recipients of a job side by side, as many as the settings allow. They begin in the
order of the job, each once, and whoever comes next begins as soon as there is room. An errand gives up
its place when it is over, in whichever way this is.

* `State.Capped`: how many errands are in flight.
* `Lined`: which errands of a job have begun; `Lined.move` and `Lined.assign` keep it.
* `fan_out_bounded`: which recipients of a job are being served, at every moment.
-/

namespace Herald.Delivery

open Happening

variable {settings : Settings} {w : World} {s t : State} {worker i number : Nat} {m : Move}
  {acts : List Act} {errands : List Errand} {job : Job} {e : Errand} {stage : Stage}

/-- The errand that has begun. -/
def Happening.began? : Happening → Option Errand
  | began e => some e
  | _ => none

/-- The errands of a job, of those in a list. -/
def ofJob (number : Nat) (errands : List Errand) : List Errand := errands.filter (·.job = number)

@[simp] theorem ofJob_append (l l' : List Errand) :
    ofJob number (l ++ l') = ofJob number l ++ ofJob number l' := List.filter_append ..

theorem mem_ofJob {l : List Errand} : e ∈ ofJob number l ↔ e ∈ l ∧ e.job = number := by simp [ofJob]

theorem ofJob_eq_nil {l : List Errand} : ofJob number l = [] ↔ ∀ e ∈ l, e.job ≠ number := by
  simp [ofJob]

theorem ofJob_errands (job : Job) (number : Nat) :
    ofJob number (job.errands number) = job.errands number :=
  List.filter_eq_self.2 fun _ he => decide_eq_true (Job.mem_errands.1 he).1

/-- No errand begins in the turn of another one. -/
theorem began_proceed (settings : Settings) (w : World) (e : Errand) (s : Scene) (stage : Stage) :
    pick began? (proceed settings w e s stage).2.log = pick began? s.log := by
  have hnote (s : Scene) {h : Happening} (hh : h.began? = none) :
      pick began? (s.note h).log = pick began? s.log := by
    simp [Scene.note, hh]
  have hstore (s : Scene) : pick began? (store settings w e s).2.log = pick began? s.log := by
    unfold store; split <;> exact hnote s rfl
  have hrecord (s : Scene) : pick began? (record settings w e s).2.log = pick began? s.log := by
    unfold record
    split
    · exact hstore s
    · exact hnote s rfl
  cases stage with
  | fresh =>
    simp only [proceed, check]
    split <;> exact hnote s rfl
  | checking window call =>
    simp only [proceed]
    split <;> exact (hnote _ rfl).trans (hnote s rfl)
  | lookingUp call =>
    simp only [proceed]
    split
    · exact (hnote _ rfl).trans (hnote s rfl)
    · exact (Send.pick_beginAll (fun _ _ _ => rfl) (fun _ _ => rfl) ..).trans (hnote s rfl)
  | sending sends =>
    simp only [proceed]
    split
    · exact hrecord s
    · exact Send.pick_proceedAll (fun _ _ _ => rfl) ..
  | recording window call =>
    simp only [proceed]
    split <;> exact hstore _
  | storing entry call =>
    simp only [proceed]
    split <;> exact hnote _ rfl

/-! ## Places -/

/-- No worker has more errands in flight than the settings allow. -/
def State.Capped (settings : Settings) (s : State) : Prop :=
  ∀ k ∈ s.workers, k.flights.length ≤ Worker.room settings

theorem Move.Step.capped {clock : ClockedCache} {k : Worker}
    {r : Worker × ClockedCache × List Happening} (h : Move.Step settings w clock k m r)
    (hc : k.flights.length ≤ Worker.room settings) : r.1.flights.length ≤ Worker.room settings := by
  cases h with
  | start _ hlt =>
    rw [List.length_append]
    exact hlt
  | @turn position f out flights hf _ _ hp =>
    have hlength := (perm_eraseIdx hf).length_eq
    have hout : out.1.toList.length ≤ 1 := by cases out.1 <;> simp
    rw [List.length_cons] at hlength
    rw [hp.length_eq, List.length_append, List.length_map]
    omega
  | take | finish => exact hc

theorem State.Capped.act {a : Act} (c : s.Capped settings) (h : s.act settings a = some t) :
    t.Capped settings := by
  cases a with
  | assign worker job number =>
    simp only [State.act, Option.ite_none_right_eq_some, Option.some.injEq] at h
    obtain ⟨hlt, rfl⟩ := h
    intro k hk
    rw [workers_assign (List.getElem?_eq_getElem hlt)] at hk
    rcases List.mem_or_eq_of_mem_set hk with hk | rfl
    · exact c k hk
    · exact c s.workers[worker] (List.getElem_mem hlt)
  | move w worker m =>
    obtain ⟨k, r, hk, hr, rfl⟩ := step_cases h
    intro k' hk'
    rcases List.mem_or_eq_of_mem_set hk' with hk' | rfl
    · exact c k' hk'
    · exact hr.capped (c k (List.mem_of_getElem? hk))
  | pass time => cases h; exact c

theorem State.Run.capped (run : State.Run settings s acts t) (h : s.New) : t.Capped settings := by
  refine Trace.keeps (P := fun _ t => t.Capped settings) run (fun k hk => ?_) fun _ _ _ _ c e => c.act e
  have hb := Worker.isBusy_eq_false.1 (Bool.eq_false_iff.2 (List.any_eq_false.1 h.idle k hk))
  simp [hb.2]

/-! ## The order of a job -/

/-- The errands of a job have begun, or they wait in line with the worker to which they were assigned,
in their order. -/
structure Lined (number i : Nat) (errands : List Errand) (s : State) : Prop where
  ordered : ∃ k, s.workers[i]? = some k ∧
    ofJob number (pick began? s.log) ++ ofJob number k.waiting = errands
  elsewhere : ∀ j k, s.workers[j]? = some k → j ≠ i → ofJob number k.errands = []

/-- Whoever begins in a move was first in line. -/
theorem Move.Step.line {clock : ClockedCache} {k : Worker} {r : Worker × ClockedCache × List Happening}
    (h : Move.Step settings w clock k m r) : pick began? r.2.2 ++ r.1.waiting = k.waiting := by
  cases h with
  | start he => rw [he]; rfl
  | turn _ _ ho _ => rw [← ho, began_proceed]; rfl
  | take | finish => rfl

/-- No errand comes to a worker by a move. -/
theorem Move.Step.errands_subset {clock : ClockedCache} {k : Worker}
    {r : Worker × ClockedCache × List Happening} (h : Move.Step settings w clock k m r) :
    r.1.errands ⊆ k.errands := by
  intro e he
  cases h with
  | start hw =>
    simp only [Worker.errands, hw, List.map_append, List.mem_append, List.mem_cons] at he ⊢
    simp only [List.map_cons, List.map_nil, List.mem_singleton] at he
    tauto
  | @turn position f out flights hf _ _ hp =>
    rcases List.mem_append.1 he with he | he
    · exact List.mem_append_left _ he
    · obtain ⟨g, hg, rfl⟩ := List.mem_map.1 he
      refine List.mem_append_right _ ?_
      rcases List.mem_append.1 (hp.mem_iff.1 hg) with hg | hg
      · obtain ⟨stage, -, rfl⟩ := List.mem_map.1 hg
        exact List.mem_map_of_mem (f := (·.errand)) (List.mem_of_getElem? hf)
      · exact List.mem_map_of_mem (List.mem_of_mem_eraseIdx hg)
  | take | finish => exact he

namespace Lined

theorem move (l : Lined number i errands s) (h : s.step settings w worker m = some t) :
    Lined number i errands t := by
  obtain ⟨k, r, hk, hr, rfl⟩ := State.step_cases h
  have hlt := (List.getElem?_eq_some_iff.1 hk).1
  have hline := congrArg (ofJob number) hr.line
  rw [ofJob_append] at hline
  obtain ⟨k', hk', ho⟩ := l.ordered
  by_cases hi : worker = i
  · subst hi
    obtain rfl : k = k' := Option.some.inj (hk.symm.trans hk')
    refine ⟨⟨r.1, List.getElem?_set_self hlt, ?_⟩, fun j k'' hj hne => ?_⟩
    · rw [pick_append, ofJob_append, List.append_assoc, hline, ho]
    · exact l.elsewhere j k'' (by simpa [Ne.symm hne] using hj) hne
  · -- Nobody of the job is with this worker.
    have hnone := ofJob_eq_nil.1 (l.elsewhere worker k hk hi)
    have hnew : ofJob number (pick began? r.2.2) = [] := ofJob_eq_nil.2 fun e he =>
      hnone e (List.mem_append_left _ (hr.line ▸ List.mem_append_left _ he))
    refine ⟨⟨k', by simpa [hi] using hk', ?_⟩, fun j k'' hj hne => ?_⟩
    · rw [pick_append, ofJob_append, hnew, List.append_nil, ho]
    · by_cases hj' : worker = j
      · subst hj'
        obtain rfl : r.1 = k'' := Option.some.inj ((List.getElem?_set_self hlt).symm.trans hj)
        exact ofJob_eq_nil.2 fun e he => hnone e (hr.errands_subset he)
      · exact l.elsewhere j k'' (by simpa [hj'] using hj) hne

/-- Another job does not come into the line of this one. -/
theorem assign {job : Job} {number' : Nat} (l : Lined number i errands s)
    (hw : worker < s.workers.length) (hn : number' ≠ number) :
    Lined number i errands (s.assign worker job number') := by
  have hnone : ofJob number (job.errands number') = [] := ofJob_eq_nil.2 fun e he =>
    (Job.mem_errands.1 he).1 ▸ hn
  have hset := State.workers_assign (List.getElem?_eq_getElem hw) job number'
  obtain ⟨k, hk, ho⟩ := l.ordered
  refine ⟨?_, fun j k' hj hne => ?_⟩
  · by_cases hi : worker = i
    · subst hi
      obtain rfl : s.workers[worker] = k := Option.some.inj ((List.getElem?_eq_getElem hw).symm.trans hk)
      refine ⟨_, hset ▸ List.getElem?_set_self hw, ?_⟩
      rw [Worker.assign, ofJob_append, hnone, List.append_nil]
      exact ho
    · exact ⟨k, by rw [hset]; simpa [hi] using hk, ho⟩
  · rw [hset] at hj
    by_cases hj' : worker = j
    · subst hj'
      obtain rfl := Option.some.inj ((List.getElem?_set_self hw).symm.trans hj)
      have hbefore := l.elsewhere worker _ (List.getElem?_eq_getElem hw) hne
      simp only [Worker.errands, Worker.assign, ofJob_append, hnone, List.append_nil] at hbefore ⊢
      exact hbefore
    · exact l.elsewhere j k' (by simpa [hj'] using hj) hne

/-- A job that is assigned lines up, if nothing of its number was there before. -/
theorem of_assign (hw : worker < s.workers.length)
    (hlog : ofJob number (pick began? s.log) = []) (hnone : ∀ k ∈ s.workers, ofJob number k.errands = []) :
    Lined number worker (job.errands number) (s.assign worker job number) := by
  have hset := State.workers_assign (List.getElem?_eq_getElem hw) job number
  refine ⟨⟨_, hset ▸ List.getElem?_set_self hw, ?_⟩, fun j k hj hne => ?_⟩
  · have hmine := hnone _ (List.getElem_mem hw)
    rw [Worker.errands, ofJob_append, List.append_eq_nil_iff] at hmine
    show ofJob number (pick began? s.log) ++ _ = _
    rw [hlog, Worker.assign, ofJob_append, hmine.1, ofJob_errands]
    rfl
  · rw [hset, List.getElem?_set_ne (Ne.symm hne)] at hj
    exact hnone k (List.mem_of_getElem? hj)

end Lined

/-- Along a run each job is in line with the worker to which it was assigned. -/
theorem State.Run.lined (run : State.Run settings s acts t) (fresh : s.New)
    (distinct : ((pick Act.job? acts).map (·.1)).Nodup) :
    ∀ worker job number, .assign worker job number ∈ acts → Lined number worker (job.errands number) t := by
  induction run with
  | refl => exact fun _ _ _ ha => absurd ha List.not_mem_nil
  | @step acts t u a run e ih =>
    have hbefore : ((pick Act.job? acts).map (·.1)).Nodup := by
      rw [pick_cons, List.map_append] at distinct
      exact (List.nodup_append.1 distinct).1
    intro i job number ha
    cases a with
    | assign worker job' number' =>
      simp only [State.act, Option.ite_none_right_eq_some, Option.some.injEq] at e
      obtain ⟨hlt, rfl⟩ := e
      have hnew : ∀ p ∈ pick Act.job? acts, p.1 ≠ number' := by
        rw [pick_cons, List.map_append] at distinct
        exact fun p hp => (List.nodup_append.1 distinct).2.2 _ (List.mem_map_of_mem hp) _
          (List.mem_singleton_self _)
      rcases List.mem_cons.1 ha with ha | ha
      · cases ha
        -- Whatever is there was assigned, so that it is of another number.
        have b := State.Run.books (fun _ => True) run fresh (fun _ _ _ _ => trivial) (nodup_keys hbefore)
        have hother : ∀ e ∈ errandsOf (pick Act.job? acts), e.job ≠ number := fun e he => by
          obtain ⟨p, hp, he⟩ := List.mem_flatMap.1 he
          exact (Job.mem_errands.1 he).1 ▸ hnew p hp
        refine .of_assign hlt (ofJob_eq_nil.2 fun e he => ?_) fun k hk => ofJob_eq_nil.2 fun e he => ?_
        · obtain ⟨h, hh, hb⟩ := mem_pick.1 he
          cases h with
          | began e' => cases hb; exact hother e (b.known _ hh e rfl)
          | _ => cases hb
        · refine hother e (b.placed.mem_iff.1 (List.mem_append_left _ ?_))
          rcases List.mem_append.1 he with he | he
          · exact List.mem_append_left _ (List.mem_flatMap.2 ⟨k, hk, he⟩)
          · obtain ⟨f, hf, rfl⟩ := List.mem_map.1 he
            exact List.mem_append_right _ (List.mem_map_of_mem (List.mem_flatMap.2 ⟨k, hk, hf⟩))
      · exact (ih hbefore i job number ha).assign hlt (hnew _ (mem_pick.2 ⟨_, ha, rfl⟩)).symm
    | move w worker m =>
      exact (ih hbefore i job number (by simpa using ha)).move e
    | pass time =>
      cases e
      have l := ih hbefore i job number (by simpa using ha)
      exact ⟨l.ordered, l.elsewhere⟩

/-! ## Who is being served -/

/-- The errands of a job, of those of all jobs. -/
theorem ofJob_errandsOf {jobs : List (Nat × Job)} (hd : (jobs.map (·.1)).Nodup)
    (h : (number, job) ∈ jobs) : ofJob number (errandsOf jobs) = job.errands number := by
  have hfilter (jobs : List (Nat × Job)) :
      ofJob number (errandsOf jobs) = errandsOf (jobs.filter (·.1 = number)) := by
    induction jobs with
    | nil => rfl
    | cons p jobs ih =>
      rw [errandsOf, List.flatMap_cons, ofJob_append, List.filter_cons, ← errandsOf, ih]
      by_cases hp : p.1 = number
      · subst hp
        simp [ofJob_errands, errandsOf]
      · have hnone : ofJob number (p.2.errands p.1) = [] := ofJob_eq_nil.2 fun e he =>
          (Job.mem_errands.1 he).1 ▸ hp
        simp [hnone, hp]
  rw [hfilter, filter_key hd h, errandsOf_singleton]

/-- What workers have of a job is with the worker to which it was assigned. -/
theorem Lined.only (l : Lined number i errands s) {k : Worker} (hk : s.workers[i]? = some k) :
    (ofJob number s.waiting).Perm (ofJob number k.waiting) ∧
      (ofJob number (s.flights.map (·.errand))).Perm (ofJob number (k.flights.map (·.errand))) := by
  have hothers : ∀ k' ∈ s.workers.eraseIdx i, ofJob number k'.errands = [] := fun k' hk' => by
    obtain ⟨j, hne, hj⟩ := List.mem_eraseIdx_iff_getElem?.1 hk'
    exact l.elsewhere j k' hj hne
  have hnone (g : Worker → List Errand) (hg : ∀ k, g k ⊆ k.errands) :
      ofJob number ((s.workers.eraseIdx i).flatMap g) = [] := ofJob_eq_nil.2 fun e he => by
    obtain ⟨k', hk', he⟩ := List.mem_flatMap.1 he
    exact ofJob_eq_nil.1 (hothers k' hk') e (hg k' he)
  have hperm (g : Worker → List Errand) (hg : ∀ k, g k ⊆ k.errands) :
      (ofJob number (s.workers.flatMap g)).Perm (ofJob number (g k)) := by
    have hp := (flatMap_perm g hk).filter (·.job = number)
    rw [List.filter_append] at hp
    simpa [ofJob, show List.filter _ _ = _ from hnone g hg] using hp
  refine ⟨hperm (·.waiting) fun _ => List.subset_append_left _ _, ?_⟩
  rw [State.flights, List.map_flatMap]
  exact hperm (fun k => k.flights.map (·.errand)) fun _ => List.subset_append_right _ _

/-- As long as an errand is in flight it was not suppressed, and its lookup did not fail. -/
theorem Fits.goes_on {worlds : World → Prop} {r : Record} (h : Fits settings worlds e r stage) :
    ¬ Suppressed settings e r ∧ ∀ cause, r.answers ≠ [.error cause] := by
  have hallowed {verdicts : List (Except Failure Bool)} (ha : Allowed settings e verdicts)
      {r : Record} (hr : r.verdicts = verdicts) : ¬ Suppressed settings e r := by
    rintro ⟨window, marked, hw, hm, hno, -⟩
    simp only [Allowed, hw] at ha
    obtain ⟨marked', rfl, hyes⟩ := ha
    obtain rfl : marked' = marked := List.head_eq_of_cons_eq (hr.symm.trans hm)
    rw [hno] at hyes; cases hyes
  cases stage with
  | fresh => cases h; exact ⟨fun ⟨_, _, _, hm, _⟩ => (by cases hm), nofun⟩
  | checking => obtain ⟨rfl, -⟩ := h; exact ⟨fun ⟨_, _, _, hm, _⟩ => (by cases hm), nofun⟩
  | lookingUp => obtain ⟨_, ha, _, rfl⟩ := h; exact ⟨hallowed ha rfl, nofun⟩
  | sending =>
    obtain ⟨_, _, _, ha, _, _, _, rfl⟩ := h
    exact ⟨hallowed ha rfl, nofun⟩
  | recording | storing =>
    obtain ⟨_, _, _, ha, _, _, rfl⟩ := h
    exact ⟨hallowed ha rfl, nofun⟩

/-- An errand that was suppressed, or the lookup of which failed, is over. -/
theorem Books.let_go {worlds : World → Prop} {assigned waiting : List Errand} {flights : List Flight}
    {log : List Happening} (b : Books settings worlds assigned waiting flights log) (he : e ∈ assigned)
    (h : Suppressed settings e (Record.of e.key log) ∨
      ∃ cause, (Record.of e.key log).answers = [.error cause]) : e ∈ pick ended? log := by
  have hm := b.placed.mem_iff.2 he
  simp only [List.mem_append, List.mem_map] at hm
  rcases hm with (hw | ⟨f, hf, rfl⟩) | ho
  · rw [b.fresh e hw] at h
    rcases h with ⟨_, _, _, hm, _⟩ | ⟨_, ha⟩
    · cases hm
    · cases ha
  · obtain ⟨hsup, hfailed⟩ := (b.fits f hf).goes_on
    rcases h with hs | ⟨cause, ha⟩
    · exact absurd hs hsup
    · exact absurd ha (hfailed cause)
  · exact ho

/-- Whoever has begun is in flight or over. -/
theorem Lined.begun_perm {worlds : World → Prop} {assigned : List Errand}
    (l : Lined number i (job.errands number) s)
    (b : Books settings worlds assigned s.waiting s.flights s.log)
    (hjob : ofJob number assigned = job.errands number) :
    (ofJob number (pick began? s.log)).Perm
      (ofJob number (s.flights.map (·.errand)) ++ ofJob number (pick ended? s.log)) := by
  obtain ⟨k, hk, hline⟩ := l.ordered
  have hplaced := b.placed.filter (·.job = number)
  rw [List.filter_append, List.filter_append] at hplaced
  change (ofJob number s.waiting ++ ofJob number (s.flights.map (·.errand)) ++
    ofJob number (pick ended? s.log)).Perm (ofJob number assigned) at hplaced
  rw [hjob, ← hline, List.append_assoc] at hplaced
  have hp := ((l.only hk).1.append_right _).symm.trans hplaced
  exact ((List.perm_append_left_iff _).1 (hp.trans List.perm_append_comm)).symm

/-- Whoever is first in line can start as long as there is room. -/
theorem State.exists_start {k : Worker} (hk : s.workers[worker]? = some k) (hne : k.waiting ≠ [])
    (hlt : k.flights.length < Worker.room settings) (w : World) :
    ∃ t, s.step settings w worker .start = some t := by
  obtain ⟨e, rest, he⟩ := List.exists_cons_of_ne_nil hne
  have hr : k.step settings w s.clock .start =
      some ({ k with waiting := rest, flights := k.flights ++ [⟨e, .fresh⟩] }, s.clock, [.began e]) := by
    simp only [Worker.step, he]
    exact if_pos hlt
  exact ⟨_, State.step_eq hk hr⟩

/-- Which errands of a job are being served, of all that have begun. A worker serves as many errands as
the settings allow and not one more. The errands of a job begin in its order, each once: those that have
begun and those that wait are the job. Whoever has begun is in flight or over, and not both.

Nobody waits for nothing: as long as there is room, the errand that is first in line can start, and
when a worker can do nothing more then nobody waits or there is no room.

An errand that was suppressed, or the lookup of which failed or overran, is over and takes no room. When
the worker has no job any more, all its errands have begun and all of them are over, and every worker
comes to have none, however things go on. -/
theorem fan_out_bounded (run : State.Run settings s acts t) (fresh : s.New)
    (distinct : ((pick Act.job? acts).map (·.1)).Nodup) (assigned : .assign worker job number ∈ acts) :
    ∃ k, t.workers[worker]? = some k ∧
    let begun := ofJob number (pick began? t.log)
    let finished := ofJob number (pick ended? t.log)
    let flying := ofJob number (t.flights.map (·.errand))
    k.flights.length ≤ max settings.concurrency 1 ∧ flying.length ≤ max settings.concurrency 1 ∧
    begun ++ ofJob number k.waiting = job.errands number ∧
    begun.Nodup ∧ begun.Perm (flying ++ finished) ∧ flying.Disjoint finished ∧
    (k.waiting ≠ [] → k.flights.length < max settings.concurrency 1 →
      ∀ w, ∃ u, t.step settings w worker .start = some u) ∧
    ((∀ w m, t.step settings w worker m = none) →
      k.waiting = [] ∨ k.flights.length = max settings.concurrency 1) ∧
    (∀ e ∈ job.errands number, Suppressed settings e (Record.of e.key t.log) ∨
      (∃ cause, (Record.of e.key t.log).answers = [.error cause]) → e ∈ finished ∧ e ∉ flying) ∧
    (k.isBusy = false → begun = job.errands number ∧ flying = [] ∧
      finished.Perm (job.errands number)) ∧
    t.Ends settings := by
  have b := run.books (fun _ => True) fresh (fun _ _ _ _ => trivial) (nodup_keys distinct)
  have l := run.lined fresh distinct worker job number assigned
  obtain ⟨k, hk, hline⟩ := l.ordered
  have hflights := (l.only hk).2
  have hcap := run.capped fresh k (List.mem_of_getElem? hk)
  have hperm := l.begun_perm b (ofJob_errandsOf distinct (mem_pick.2 ⟨_, assigned, rfl⟩))
  have hbegun : (ofJob number (pick began? t.log)).Nodup :=
    (List.nodup_append.1 (hline ▸ (job.nodup_keys number).of_map)).1
  have hdisjoint := (List.nodup_append'.1 (hperm.nodup_iff.1 hbegun)).2.2
  refine ⟨k, hk, hcap, hflights.length_eq ▸ ?_, hline, hbegun, hperm, hdisjoint,
    State.exists_start hk, fun hstuck => ?_, fun e he hend => ?_, fun hb => ?_,
    State.ends (run.queued fresh)⟩
  · refine Nat.le_trans (List.length_filter_le ..) ?_
    rw [List.length_map]
    exact hcap
  · by_contra hno
    obtain ⟨hne, hroom⟩ := not_or.1 hno
    obtain ⟨u, hu⟩ := State.exists_start hk hne (Nat.lt_of_le_of_ne hcap hroom)
      ⟨fun _ => .now [], fun _ _ => .now (), .now (), .now (), 0⟩
    rw [hstuck] at hu
    cases hu
  · have hover := mem_ofJob.2 ⟨b.let_go (mem_errandsOf_assigned assigned he) hend,
      (Job.mem_errands.1 he).1⟩
    exact ⟨hover, fun hf => hdisjoint hf hover⟩
  · obtain ⟨hw, hf⟩ := Worker.isBusy_eq_false.1 hb
    have hall : ofJob number (pick began? t.log) = job.errands number := by
      simpa [hw, ofJob] using hline
    have hnil : ofJob number (t.flights.map (·.errand)) = [] := by
      simpa [hf, ofJob] using hflights
    exact ⟨hall, hnil, by simpa [hall, hnil] using hperm.symm⟩

/-- The first user's lookup overruns, and the others have a device each. -/
def slowLookup : World where
  devices user := if user = 1 then ⟨20, .ok ["a"]⟩ else ⟨5, .ok ["b"]⟩
  gateway _ _ := ⟨30, .ok ()⟩
  cache := .now ()
  removal := .now ()
  time := 0

/-- Two of three users are served, until the lookup of the first one overruns and the third one begins. Latest
first. -/
def threeUsers : List Act :=
  [.move slowLookup 0 .start, .move slowLookup 0 (.turn 0), .pass 10, .move slowLookup 0 (.turn 1),
    .pass 5, .move slowLookup 0 (.turn 0), .move slowLookup 0 (.turn 0), .move slowLookup 0 .start,
    .move slowLookup 0 .start,
    .assign 0 ⟨[.withDefaults 1, .withDefaults 2, .withDefaults 3],
      ⟨.newRoom, ⟨"", []⟩, ∅, none, none⟩⟩ 7]

theorem fan_out_bounded_threeUsers :
    ∃ t, State.Run ⟨⟨0, 0⟩, .ofMillis 10, 2, 5⟩ ⟨{}, [{ sink := .create 1 }], []⟩ threeUsers t ∧
      (ofJob 7 (pick began? t.log)).map (·.position) = [0, 1, 2] ∧
      (ofJob 7 (t.flights.map (·.errand))).length ≤ 2 ∧
      ⟨7, 0, .withDefaults 1, ⟨.newRoom, ⟨"", []⟩, ∅, none, none⟩⟩ ∈ ofJob 7 (pick ended? t.log) := by
  obtain ⟨t, ht⟩ : ∃ t, play (State.act ⟨⟨0, 0⟩, .ofMillis 10, 2, 5⟩)
      ⟨{}, [{ sink := .create 1 }], []⟩ threeUsers = some t := ⟨_, rfl⟩
  have hnew : State.New ⟨{}, [{ sink := .create 1 }], []⟩ :=
    ⟨rfl, rfl, by simp [Cleanup.Sink.create, Channel.create]⟩
  obtain ⟨k, hk, -, hflying, hline, -, -, -, -, -, hgo, -⟩ := fan_out_bounded (trace_iff.2 ht) hnew
    (by simp [threeUsers, Act.job?]) (List.mem_of_getLast? rfl)
  have hwaiting : k.waiting = [] := by cases ht; cases hk; rfl
  rw [hwaiting] at hline
  refine ⟨t, trace_iff.2 ht, ?_, hflying, (hgo _ (List.mem_cons_self ..) (.inr ?_)).1⟩
  · simpa [ofJob, Job.errands] using congrArg (List.map (·.position)) hline
  · cases ht
    exact ⟨_, rfl⟩

end Herald.Delivery
