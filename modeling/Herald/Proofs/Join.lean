import Herald.Call
import Herald.Proofs.Trace

/-!
# Side by side

`Timed.all` says at once what computations come to that run side by side. Here they are over one after
the other, in whatever order their times and the clock allow, and whoever waits for them goes on when
the last one is over. It comes to the same.

* `Join.act`: one computation is over, or time passes.
* `Join.Run.results`: what they come to stands in the order of the list, not of time.
* `Join.Run.completes`: from every moment on, all of them can come to an end.
* `Join.yields`: both together.
-/

namespace Herald

variable {α β : Type}

/-- A computation among others, and what it came to if it is over. -/
structure Strand (α : Type) where
  work : Timed α
  result : Option α := none

/-- What a strand came to is the value of its computation, and it took its time. -/
def Strand.Sound (now : Nat) (t : Strand α) : Prop :=
  ∀ a, t.result = some a → a = t.work.value ∧ t.work.elapsed ≤ now

/-- Computations side by side, and the time since they started. -/
structure Join (α : Type) where
  now : Nat := 0
  strands : List (Strand α)

namespace Join

/-- Computations start. -/
def start (ts : List (Timed α)) : Join α := { strands := ts.map fun t => { work := t } }

/-- Something that can happen. -/
inductive Act where
  /-- The computation at a position is over. -/
  | finish (position : Nat)
  | pass (time : Nat)

/-- What becomes of computations; none if it cannot happen. -/
def act (j : Join α) : Act → Option (Join α)
  | .finish position =>
    match j.strands[position]? with
    | none => none
    | some t =>
      if t.result.isNone && decide (t.work.elapsed ≤ j.now) then
        some { j with strands := j.strands.set position { t with result := some t.work.value } }
      else none
  | .pass time => some { j with now := max j.now time }

/-- What the computations came to, in their order; none as long as one is not over. -/
def results? (j : Join α) : Option (List α) := j.strands.mapM (·.result)

/-- What may happen to computations from their start on; the acts are given latest first. -/
def Run (ts : List (Timed α)) : List Act → Join α → Prop := Trace act (start ts)

variable {ts : List (Timed α)} {j k : Join α} {acts : List Act} {rs : List α}

/-! ## Steps -/

/-- The computations are these, and what they came to is theirs. -/
structure Of (ts : List (Timed α)) (j : Join α) : Prop where
  works : j.strands.map (·.work) = ts
  sound : ∀ t ∈ j.strands, t.Sound j.now

theorem of_start (ts : List (Timed α)) : Of ts (start ts) where
  works := by simp [start, Function.comp_def]
  sound t ht a ha := by
    obtain ⟨u, -, rfl⟩ := List.mem_map.1 ht
    cases ha

theorem act_finish {position : Nat} {t : Strand α} (ht : j.strands[position]? = some t)
    (hn : t.result = none) (hd : t.work.elapsed ≤ j.now) : j.act (.finish position) =
      some { j with strands := j.strands.set position { t with result := some t.work.value } } := by
  simp [act, ht, hn, hd]

/-- Whatever happens, the computations stay, and what they come to is theirs. -/
theorem Of.step (o : Of ts j) {a : Act} (h : j.act a = some k) : Of ts k := by
  cases a with
  | finish position =>
    simp only [act] at h
    split at h
    · cases h
    · next t ht =>
      split at h <;> cases h
      next hd =>
      obtain ⟨hlt, rfl⟩ := List.getElem?_eq_some_iff.1 ht
      refine ⟨?_, fun u hu => ?_⟩
      · show (j.strands.set position _).map _ = _
        rw [List.map_set, ← o.works]
        have hw : (j.strands.map (·.work))[position]? = some j.strands[position].work := by simp [hlt]
        obtain ⟨h, hw⟩ := List.getElem?_eq_some_iff.1 hw
        rw [← hw]
        exact List.set_getElem_self ..
      · rcases List.mem_or_eq_of_mem_set hu with hu | rfl
        · exact o.sound u hu
        · rintro a ⟨⟩
          exact ⟨rfl, of_decide_eq_true (Bool.and_eq_true_iff.1 hd).2⟩
  | pass time =>
    cases h
    refine ⟨o.works, fun t ht a ha => ?_⟩
    obtain ⟨hv, he⟩ := o.sound t ht a ha
    exact ⟨hv, Nat.le_trans he (Nat.le_max_left ..)⟩

theorem Run.of (run : Run ts acts j) : Of ts j :=
  Trace.keeps (P := fun _ j => Of ts j) run (of_start ts) fun _ _ _ _ o h => o.step h

/-! ## Results -/

theorem results_of_sound {strands : List (Strand α)} {now : Nat} (hs : ∀ t ∈ strands, t.Sound now)
    (h : strands.mapM (·.result) = some rs) :
    rs = strands.map (·.work.value) ∧ ∀ t ∈ strands, t.work.elapsed ≤ now := by
  induction strands generalizing rs with
  | nil => cases h; exact ⟨rfl, nofun⟩
  | cons t strands ih =>
    obtain ⟨ht, hs⟩ := List.forall_mem_cons.1 hs
    rw [List.mapM_cons] at h
    obtain ⟨a, ha, h⟩ := Option.bind_eq_some_iff.1 h
    obtain ⟨as, has, h⟩ := Option.bind_eq_some_iff.1 h
    cases h
    obtain ⟨rfl, he⟩ := ih hs has
    obtain ⟨rfl, htime⟩ := ht a ha
    exact ⟨rfl, List.forall_mem_cons.2 ⟨htime, he⟩⟩

/-- In whatever order computations are over, they come to what they come to side by side, and no
sooner. -/
theorem Run.results (run : Run ts acts j) (h : j.results? = some rs) :
    rs = (Timed.all ts).value ∧ (Timed.all ts).elapsed ≤ j.now := by
  obtain ⟨works, sound⟩ := run.of
  obtain ⟨hr, he⟩ := results_of_sound sound h
  subst works
  refine ⟨?_, Timed.elapsed_all_le fun t ht => ?_⟩
  · rw [Timed.value_all, List.map_map]; exact hr
  · obtain ⟨s, hs, rfl⟩ := List.mem_map.1 ht
    exact he s hs

theorem exists_results {strands : List (Strand α)} (h : ∀ t ∈ strands, t.result ≠ none) :
    ∃ rs, strands.mapM (·.result) = some rs := by
  induction strands with
  | nil => exact ⟨[], rfl⟩
  | cons t strands ih =>
    obtain ⟨ht, hs⟩ := List.forall_mem_cons.1 h
    obtain ⟨a, ha⟩ := Option.ne_none_iff_exists'.1 ht
    obtain ⟨as, has⟩ := ih hs
    exact ⟨a :: as, by rw [List.mapM_cons, ha, has]; rfl⟩

/-- Once their times have come, the computations can be over, one after the other. -/
theorem exists_finish (hd : ∀ t ∈ j.strands, t.work.elapsed ≤ j.now) :
    ∃ acts k rs, Trace act j acts k ∧ k.now = j.now ∧ k.results? = some rs := by
  induction hn : j.strands.countP (·.result.isNone) generalizing j with
  | zero =>
    obtain ⟨rs, hr⟩ := @exists_results _ j.strands fun t ht hr => by
      have := List.countP_eq_zero.1 hn t ht
      simp [hr] at this
    exact ⟨[], j, rs, .refl, rfl, hr⟩
  | succ n ih =>
    have hpos : 0 < j.strands.countP (·.result.isNone) := by omega
    obtain ⟨t, ht, hr⟩ := List.countP_pos_iff.1 hpos
    obtain ⟨position, hlt, rfl⟩ := List.getElem_of_mem ht
    have hr : j.strands[position].result.isNone = true := hr
    have hstep := act_finish (List.getElem?_eq_getElem hlt) (Option.isNone_iff_eq_none.1 hr) (hd _ ht)
    generalize hk : ({ j with strands := _ } : Join α) = k at hstep
    have hdue : ∀ t ∈ k.strands, t.work.elapsed ≤ k.now := by
      subst hk
      intro u hu
      rcases List.mem_or_eq_of_mem_set hu with hu | rfl
      · exact hd u hu
      · exact hd j.strands[position] ht
    have hcount : k.strands.countP (·.result.isNone) = n := by
      subst hk
      rw [List.countP_set hlt, hn]
      simp [hr]
    obtain ⟨acts, m, rs, hrun, hnow, hm⟩ := ih hdue hcount
    refine ⟨acts ++ [.finish position], m, rs, .trans (.step _ .refl hstep) hrun, ?_, hm⟩
    subst hk
    exact hnow

/-- However far they have come, computations can come to an end, as soon as the longest one is over. -/
theorem Run.completes (run : Run ts acts j) : ∃ later k, Run ts (later ++ acts) k ∧
    k.results? = some (Timed.all ts).value ∧ k.now = max j.now (Timed.all ts).elapsed := by
  let waited : Join α := { j with now := max j.now (Timed.all ts).elapsed }
  have hpass : Run ts (.pass (Timed.all ts).elapsed :: acts) waited := .step _ run rfl
  have hd : ∀ t ∈ waited.strands, t.work.elapsed ≤ waited.now := by
    intro t ht
    refine Nat.le_trans ?_ (Nat.le_max_right ..)
    refine Timed.le_elapsed_all ?_
    rw [← run.of.works]
    exact List.mem_map_of_mem ht
  obtain ⟨later, k, rs, hrun, hnow, hr⟩ := exists_finish hd
  have hall := hpass.trans hrun
  refine ⟨later ++ [.pass (Timed.all ts).elapsed], k, ?_, ?_, hnow⟩
  · rw [List.append_assoc]; exact hall
  · rw [hr, (Run.results hall hr).1]

/-- In whatever order computations are over, what they came to satisfies a condition, and from every
moment on all of them can come to an end. -/
def Yields (ts : List (Timed α)) (P : List α → Prop) : Prop :=
  (∀ acts j rs, Run ts acts j → j.results? = some rs → P rs) ∧
    ∀ acts j, Run ts acts j → ∃ later k rs, Run ts (later ++ acts) k ∧ k.results? = some rs

theorem yields {P : List α → Prop} (h : P (Timed.all ts).value) : Yields ts P := by
  refine ⟨fun acts j rs run hr => ?_, fun acts j run => ?_⟩
  · rw [(run.results hr).1]
    exact h
  · obtain ⟨later, k, hk, hr, -⟩ := run.completes
    exact ⟨later, k, _, hk, hr⟩

end Join

end Herald
