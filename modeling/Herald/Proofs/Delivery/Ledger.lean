import Herald.Proofs.Delivery.Books
import Herald.Proofs.Delivery.Step
import Mathlib.Data.List.Nodup

/-!
# The books along a run

* `Books.move`, `Books.assign_state`: what happens to delivery workers keeps their books.
* `State.Run.books`, `State.Run.home`: the books along a run, and where each errand is.
-/

namespace Herald.Delivery

open Happening

variable {settings : Settings} {worlds : World → Prop} {assigned : List Errand} {s t : State}
  {w : World} {worker : Nat} {m : Move} {acts : List Act}

namespace Books

/-- A move of a worker keeps the books. -/
theorem move (b : Books settings worlds assigned s.waiting s.flights s.log)
    (hn : (assigned.map (·.key)).Nodup) (hw : worlds w) (h : s.step settings w worker m = some t) :
    Books settings worlds assigned t.waiting t.flights t.log := by
  cases State.Step.of_step h with
  | start hsw htw htf _ hlog =>
    rw [hlog]
    exact (b.perm hsw .rfl).start.perm htw.symm htf.symm
  | turn _ _ _ ho hwaiting hsf htf _ hlog =>
    rw [hlog]
    exact ((b.perm hwaiting.symm hsf).turn hn hw rfl ho).perm .rfl htf.symm
  | take hwaiting hflights _ hlog =>
    rw [hlog]
    exact (b.call _).perm hwaiting.symm hflights.symm
  | finish hwaiting hflights _ hlog =>
    rw [hlog]
    exact b.perm hwaiting.symm hflights.symm

theorem assign_state {job : Job} {number : Nat}
    (b : Books settings worlds assigned s.waiting s.flights s.log)
    (hn : ((assigned ++ job.errands number).map (·.key)).Nodup) (hw : worker < s.workers.length) :
    Books settings worlds (assigned ++ job.errands number) (s.assign worker job number).waiting
      (s.assign worker job number).flights (s.assign worker job number).log :=
  (b.assign hn).perm (State.waiting_assign hw job number).symm
    (State.flights_assign hw job number).symm

end Books

/-! ## Where errands are -/

/-- An errand of a worker that makes a move stays with the worker, or it ends. -/
theorem Move.Step.errands {clock : ClockedCache} {k : Worker}
    {r : Worker × ClockedCache × List Happening} {e : Errand}
    (h : Move.Step settings w clock k m r) (hw : worlds w)
    (hf : ∀ f ∈ k.flights, ∃ record, Fits settings worlds f.errand record f.stage)
    (he : e ∈ k.errands) : e ∈ r.1.errands ∨ e ∈ pick ended? r.2.2 := by
  cases h with
  | start he' =>
    left
    simp only [Worker.errands, he', List.map_append, List.mem_append, List.mem_cons] at he ⊢
    simp only [List.map_cons, List.map_nil, List.mem_singleton]
    tauto
  | @turn position f out flights hfl hr ho hp =>
    have hk := perm_eraseIdx hfl
    rcases List.mem_append.1 he with he | he
    · exact .inl (List.mem_append_left _ he)
    · obtain ⟨g, hg, rfl⟩ := List.mem_map.1 he
      rcases List.mem_cons.1 (hk.mem_iff.1 hg) with rfl | hg
      · obtain ⟨record, hfit⟩ := hf g (List.mem_of_getElem? hfl)
        have hend := (ho ▸ proceed_leads (s := k.scene clock) hw hfit).ended (endings_of_fits hfit)
        cases hout : out.1 with
        | none =>
          rw [hout] at hend
          exact .inr (by simp [hend])
        | some stage =>
          have hm : (⟨g.errand, stage⟩ : Flight) ∈ flights := hp.mem_iff.2 (by simp [hout])
          exact .inl (List.mem_append_right _ (List.mem_map.2 ⟨_, hm, rfl⟩))
      · have hm : g ∈ flights := hp.mem_iff.2 (List.mem_append_right _ hg)
        exact .inl (List.mem_append_right _ (List.mem_map_of_mem hm))
  | take | finish => exact .inl he

/-- An errand is with a worker, or it is over. -/
def Home (worker : Nat) (e : Errand) (s : State) : Prop :=
  (∃ k, s.workers[worker]? = some k ∧ e ∈ k.errands) ∨ e ∈ pick ended? s.log

namespace Home

variable {e : Errand} {i : Nat}

/-- An errand stays with its worker until it is over. -/
theorem move (h : Home i e s) (b : Books settings worlds assigned s.waiting s.flights s.log)
    (hw : worlds w) (hs : s.step settings w worker m = some t) : Home i e t := by
  obtain ⟨k, r, hk, hr, rfl⟩ := State.step_cases hs
  rcases h with ⟨k', hk', he⟩ | he
  · by_cases hi : worker = i
    · subst hi
      obtain rfl : k = k' := Option.some.inj (hk.symm.trans hk')
      have hlt := (List.getElem?_eq_some_iff.1 hk).1
      have hfits : ∀ f ∈ k.flights, ∃ record, Fits settings worlds f.errand record f.stage :=
        fun f hf => ⟨_, b.fits f (List.mem_flatMap.2 ⟨k, List.mem_of_getElem? hk, hf⟩)⟩
      rcases hr.errands hw hfits he with he | he
      · exact .inl ⟨r.1, List.getElem?_set_self hlt, he⟩
      · exact .inr (by simp [he])
    · exact .inl ⟨k', by simpa [hi] using hk', he⟩
  · exact .inr (by simp [he])

/-- A worker that is not busy has brought its errands to their ends. -/
theorem past (h : Home i e s) {k : Worker} (hk : s.workers[i]? = some k) (hb : k.isBusy = false) :
    e ∈ pick ended? s.log := by
  refine h.resolve_left ?_
  rintro ⟨k', hk', he⟩
  obtain rfl : k = k' := Option.some.inj (hk.symm.trans hk')
  simp [Worker.errands, Worker.isBusy_eq_false.1 hb] at he

theorem assign {job : Job} {number : Nat} (h : Home i e s) :
    Home i e (s.assign worker job number) := by
  rcases h with ⟨k, hk, he⟩ | he
  · by_cases hi : worker = i
    · subst hi
      refine .inl ⟨k.assign job number, ?_, ?_⟩
      · rw [State.workers_assign hk]
        exact List.getElem?_set_self (List.getElem?_eq_some_iff.1 hk).1
      · simp only [Worker.errands, Worker.assign, List.mem_append] at he ⊢
        tauto
    · exact .inl ⟨k, by simpa [State.assign, hi] using hk, he⟩
  · exact .inr he

theorem of_assign {job : Job} {number : Nat} (hw : worker < s.workers.length)
    (he : e ∈ job.errands number) : Home worker e (s.assign worker job number) := by
  have hk := List.getElem?_eq_getElem hw
  refine .inl ⟨s.workers[worker].assign job number, ?_, ?_⟩
  · rw [State.workers_assign hk]
    exact List.getElem?_set_self hw
  · simp only [Worker.errands, Worker.assign, List.mem_append]
    exact .inl (.inr he)

end Home

/-! ## Runs -/

/-- The errands of jobs, given with their numbers. -/
def errandsOf (jobs : List (Nat × Job)) : List Errand := jobs.flatMap fun p => p.2.errands p.1

@[simp] theorem errandsOf_append (jobs jobs' : List (Nat × Job)) :
    errandsOf (jobs ++ jobs') = errandsOf jobs ++ errandsOf jobs' := List.flatMap_append

@[simp] theorem errandsOf_singleton (p : Nat × Job) : errandsOf [p] = p.2.errands p.1 := by
  simp [errandsOf]

/-- The job that was assigned, with its number. -/
def Act.job? : Act → Option (Nat × Job)
  | .assign _ job number => some (number, job)
  | _ => none

/-- The worlds that replied to calls. -/
def Act.world? : Act → Option World
  | .move w _ _ => some w
  | _ => none

theorem Job.mem_errands {job : Job} {number : Nat} {e : Errand} : e ∈ job.errands number ↔
    e.job = number ∧ e.notification = job.notification ∧
      job.targets[e.position]? = some e.recipient := by
  simp only [Job.errands, List.mem_map, List.mem_zipIdx_iff_getElem?, Prod.exists]
  constructor
  · rintro ⟨u, i, hu, rfl⟩; exact ⟨rfl, rfl, hu⟩
  · rintro ⟨rfl, hn, hu⟩; exact ⟨_, _, hu, by rw [← hn]⟩

theorem Job.nodup_keys (job : Job) (number : Nat) : ((job.errands number).map (·.key)).Nodup := by
  have hk : (job.errands number).map (·.key) =
      (job.targets.zipIdx.map (·.2)).map fun i => (number, i) := by
    rw [Job.errands, List.map_map, List.map_map]; rfl
  rw [hk, List.zipIdx_map_snd]
  exact (List.nodup_range').map fun i j h => (Prod.mk.inj h).2

/-- Errands of jobs with different numbers have different keys. -/
theorem nodup_keys {jobs : List (Nat × Job)} (h : (jobs.map (·.1)).Nodup) :
    ((errandsOf jobs).map (·.key)).Nodup := by
  induction jobs with
  | nil => exact .nil
  | cons p jobs ih =>
    obtain ⟨hn, hd⟩ := List.nodup_cons.1 (List.map_cons ▸ h)
    rw [errandsOf, List.flatMap_cons, List.map_append]
    refine List.nodup_append.2 ⟨p.2.nodup_keys p.1, ih hd, ?_⟩
    intro k hk l hl hkl
    obtain ⟨e, he, rfl⟩ := List.mem_map.1 hk
    obtain ⟨e', he', rfl⟩ := List.mem_map.1 hl
    obtain ⟨q, hq, he'⟩ := List.mem_flatMap.1 he'
    have hj : e.job = e'.job := (Prod.mk.inj hkl).1
    rw [(Job.mem_errands.1 he).1, (Job.mem_errands.1 he').1] at hj
    exact hn (hj ▸ List.mem_map_of_mem hq)

namespace State

/-- Workers to which nothing was ever assigned. Whatever the cache and the sinks hold, nothing waits
for a place in a sink. -/
structure New (s : State) : Prop where
  idle : s.isBusy = false
  unwritten : s.log = []
  sinks : ∀ k ∈ s.workers, k.sink.queue.waiting = [] ∧ 0 < k.sink.queue.capacity

theorem waiting_of_idle (h : s.isBusy = false) : s.waiting = [] :=
  List.flatMap_eq_nil_iff.2 fun k hk =>
    (Worker.isBusy_eq_false.1 (Bool.eq_false_iff.2 (List.any_eq_false.1 h k hk))).1

theorem flights_of_idle (h : s.isBusy = false) : s.flights = [] :=
  List.flatMap_eq_nil_iff.2 fun k hk =>
    (Worker.isBusy_eq_false.1 (Bool.eq_false_iff.2 (List.any_eq_false.1 h k hk))).2

namespace New

theorem waiting (h : s.New) : s.waiting = [] := waiting_of_idle h.idle

theorem flights (h : s.New) : s.flights = [] := flights_of_idle h.idle

end New

/-- The books along a run. -/
theorem Run.books (worlds : World → Prop) (run : Run settings s acts t) (h : s.New)
    (hw : ∀ a ∈ acts, ∀ w, a.world? = some w → worlds w)
    (hn : ((errandsOf (pick Act.job? acts)).map (·.key)).Nodup) :
    Books settings worlds (errandsOf (pick Act.job? acts)) t.waiting t.flights t.log := by
  refine Trace.keeps (P := fun acts t => (∀ a ∈ acts, ∀ w, a.world? = some w → worlds w) →
    ((errandsOf (pick Act.job? acts)).map (·.key)).Nodup →
    Books settings worlds (errandsOf (pick Act.job? acts)) t.waiting t.flights t.log) run ?_ ?_ hw hn
  · intro _ _
    rw [h.waiting, h.flights, h.unwritten]
    exact .nil fun _ ha => absurd ha List.not_mem_nil
  · intro acts t a u ih e hw hn
    have hw' : ∀ a ∈ acts, ∀ w, a.world? = some w → worlds w := fun a ha =>
      hw a (List.mem_cons_of_mem _ ha)
    cases a with
    | assign worker job number =>
      simp only [act, Option.ite_none_right_eq_some, Option.some.injEq] at e
      obtain ⟨hlt, rfl⟩ := e
      simp only [pick_cons, Act.job?, Option.toList_some, errandsOf_append,
        errandsOf_singleton] at hn ⊢
      have hn' := hn
      rw [List.map_append] at hn'
      exact (ih hw' (List.nodup_append.1 hn').1).assign_state hn hlt
    | move w worker m =>
      simp only [pick_cons, Act.job?, Option.toList_none, List.append_nil] at hn ⊢
      exact (ih hw' hn).move hn (hw _ (List.mem_cons_self ..) w rfl) e
    | pass time =>
      simp only [pick_cons, Act.job?, Option.toList_none, List.append_nil] at hn ⊢
      cases e; exact ih hw' hn

/-- Along a run, errands are with the worker to which their job was assigned until they are over. -/
theorem Run.home (run : Run settings s acts t) (h : s.New)
    (hn : ((errandsOf (pick Act.job? acts)).map (·.key)).Nodup) :
    ∀ worker job number, .assign worker job number ∈ acts →
      ∀ e ∈ job.errands number, Home worker e t := by
  induction run with
  | refl => exact fun _ _ _ ha => absurd ha List.not_mem_nil
  | @step acts t u a run e ih =>
    cases a with
    | assign worker job number =>
      simp only [act, Option.ite_none_right_eq_some, Option.some.injEq] at e
      obtain ⟨hlt, rfl⟩ := e
      simp only [pick_cons, Act.job?, Option.toList_some, errandsOf_append, List.map_append] at hn
      intro i job' number' ha e' he
      rcases List.mem_cons.1 ha with ha | ha
      · cases ha; exact .of_assign hlt he
      · exact (ih (List.nodup_append.1 hn).1 i job' number' ha e' he).assign
    | move w worker m =>
      simp only [pick_cons, Act.job?, Option.toList_none, List.append_nil] at hn
      have b := Run.books (fun _ => True) run h (fun _ _ _ _ => trivial) hn
      intro i job number ha e' he
      rcases List.mem_cons.1 ha with ha | ha
      · cases ha
      · exact (ih hn i job number ha e' he).move b trivial e
    | pass time =>
      simp only [pick_cons, Act.job?, Option.toList_none, List.append_nil] at hn
      cases e
      intro i job number ha e' he
      rcases List.mem_cons.1 ha with ha | ha
      · cases ha
      · exact ih hn i job number ha e' he

end State

end Herald.Delivery
