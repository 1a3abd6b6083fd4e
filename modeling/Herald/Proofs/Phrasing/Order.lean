import Herald.Proofs.Phrasing
import Mathlib.Data.List.InsertIdx
import Mathlib.Data.List.Perm.Basic

/-!
# In which order members are named

The actor is named first, and all others in the room's order. A user may have several entries in a room, even equal
ones, so that only its place tells an entry from the others.

* `FirstAt`: where the first entry of a user is.
* `leadPlaced?`: the order as it is found by that place alone; each entry has its place with it.
* `leadPlaced?_perm`, `leadPlaced?_pairwise`: every place is there once, and the others are as they were.
* `leadWith_eq_leadPlaced?`: without the places, that is the order in which members are named.
* `actor_leads`: all of this at once.
-/

namespace Herald.Phrasing

variable {members ordered : List Member} {actor : UserId} {place : Nat} {first : Member}
  {placed : List (Member × Nat)}

/-! ## The place of the actor -/

/-- `first` is the first entry of a user, and stands at this place. -/
structure FirstAt (members : List Member) (actor : UserId) (place : Nat) (first : Member) : Prop where
  here : members[place]? = some first
  own : first.id = actor
  earlier : ∀ i < place, ∀ m, members[i]? = some m → m.id ≠ actor

theorem findIdx?_eq_some :
    members.findIdx? (·.id == actor) = some place ↔ ∃ first, FirstAt members actor place first := by
  rw [List.findIdx?_eq_some_iff_getElem]
  constructor
  · rintro ⟨hlt, hid, hearlier⟩
    refine ⟨members[place], List.getElem?_eq_getElem hlt, eq_of_beq hid, fun i hi m hm => ?_⟩
    obtain ⟨-, rfl⟩ := List.getElem?_eq_some_iff.1 hm
    simpa using hearlier i hi
  · rintro ⟨first, hhere, hown, hearlier⟩
    obtain ⟨hlt, rfl⟩ := List.getElem?_eq_some_iff.1 hhere
    refine ⟨hlt, beq_iff_eq.2 hown, fun i hi => ?_⟩
    simpa using hearlier i hi _ (List.getElem?_eq_getElem (Nat.lt_trans hi hlt))

/-- To lead is to be the first entry and to stand before what is left without the place that it was taken from. -/
theorem leads_iff_firstAt : Leads members actor ordered ↔
    ∃ place first, FirstAt members actor place first ∧ ordered = first :: members.eraseIdx place := by
  constructor
  · rintro ⟨before, first, after, rfl, hbefore, hown, rfl⟩
    refine ⟨before.length, first, ⟨by simp, hown, fun i hi m hm => ?_⟩, ?_⟩
    · rw [List.getElem?_append_left hi] at hm
      exact hbefore m (List.mem_of_getElem? hm)
    · rw [List.eraseIdx_append_of_length_le (Nat.le_refl _), Nat.sub_self, List.eraseIdx_cons_zero]
  · rintro ⟨place, first, ⟨hhere, hown, hearlier⟩, rfl⟩
    obtain ⟨hlt, rfl⟩ := List.getElem?_eq_some_iff.1 hhere
    refine ⟨members.take place, members[place], members.drop (place + 1), ?_, fun m hm => ?_, hown, ?_⟩
    · rw [← List.drop_eq_getElem_cons hlt, List.take_append_drop]
    · obtain ⟨i, hi, rfl⟩ := List.mem_take_iff_getElem.1 hm
      obtain ⟨hip, hil⟩ := Nat.lt_min.1 hi
      exact hearlier i hip _ (List.getElem?_eq_getElem hil)
    · rw [List.eraseIdx_eq_take_drop_succ]

/-! ## The order of the places -/

/-- The entries with their places: the one at the place that is found for `actor`, and then those at all other places.
None if no place is found, or if nothing stands at it. -/
def leadPlaced? (members : List Member) (actor : UserId) : Option (List (Member × Nat)) := do
  let place ← members.findIdx? (·.id == actor)
  let first ← members.zipIdx[place]?
  some (first :: members.zipIdx.filter (·.2 != place))

/-- To keep what stands at other places is to leave one entry out, even if others are equal to it. -/
theorem filter_zipIdx (members : List Member) (start place : Nat) :
    (members.zipIdx start).filter (·.2 != start + place) = (members.zipIdx start).eraseIdx place := by
  induction members generalizing start place with
  | nil => rfl
  | cons m rest ih =>
    rw [List.zipIdx_cons]
    cases place with
    | zero =>
      have hrest : (rest.zipIdx (start + 1)).filter (·.2 != start) = rest.zipIdx (start + 1) := by
        refine List.filter_eq_self.2 fun p hp => bne_iff_ne.2 ?_
        exact Nat.ne_of_gt (List.le_snd_of_mem_zipIdx hp)
      rw [List.eraseIdx_cons_zero, Nat.add_zero, List.filter_cons_of_neg (by simp), hrest]
    | succ place =>
      have hplace : start + (place + 1) = start + 1 + place := by omega
      have hkept : start ≠ start + 1 + place := by omega
      rw [List.eraseIdx_cons_succ, hplace, List.filter_cons, if_pos (bne_iff_ne.2 hkept), ih]

theorem FirstAt.getElem?_zipIdx (h : FirstAt members actor place first) :
    members.zipIdx[place]? = some (first, place) := by
  rw [List.getElem?_zipIdx, h.here, Option.map_some, Nat.zero_add]

theorem leadPlaced?_of_firstAt (h : FirstAt members actor place first) :
    leadPlaced? members actor = some ((first, place) :: members.zipIdx.eraseIdx place) := by
  have hplace : members.findIdx? (·.id == actor) = some place := findIdx?_eq_some.2 ⟨first, h⟩
  have hothers := filter_zipIdx members 0 place
  rw [Nat.zero_add] at hothers
  simp only [leadPlaced?, hplace, h.getElem?_zipIdx, hothers, Option.bind_eq_bind, Option.bind_some]

/-- One entry is in front, and one is left out of the others. -/
theorem leadPlaced?_eq_some : leadPlaced? members actor = some placed ↔ ∃ place first,
    FirstAt members actor place first ∧ placed = (first, place) :: members.zipIdx.eraseIdx place := by
  constructor
  · intro h
    obtain ⟨place, hplace, -⟩ := Option.bind_eq_some_iff.1 h
    obtain ⟨first, hf⟩ := findIdx?_eq_some.1 hplace
    exact ⟨place, first, hf, Option.some.inj (h.symm.trans (leadPlaced?_of_firstAt hf))⟩
  · rintro ⟨place, first, hf, rfl⟩
    exact leadPlaced?_of_firstAt hf

/-- No place is lost, and none is there twice. -/
theorem leadPlaced?_perm (h : leadPlaced? members actor = some placed) : placed.Perm members.zipIdx := by
  obtain ⟨place, first, hf, rfl⟩ := leadPlaced?_eq_some.1 h
  obtain ⟨hlt, hget⟩ := List.getElem?_eq_some_iff.1 hf.getElem?_zipIdx
  rw [← hget]
  exact List.getElem_cons_eraseIdx_perm hlt

/-- All but the first are in the order of their places. -/
theorem leadPlaced?_pairwise (h : leadPlaced? members actor = some placed) :
    placed.tail.Pairwise (·.2 < ·.2) := by
  obtain ⟨place, first, -, rfl⟩ := leadPlaced?_eq_some.1 h
  have hall : members.zipIdx.Pairwise (·.2 < ·.2) := by
    rw [← List.pairwise_map (f := Prod.snd), List.zipIdx_map_snd]
    exact List.pairwise_lt_range'
  exact hall.sublist (List.eraseIdx_sublist ..)

/-! ## The order of the entries -/

theorem leadWith_eq_leadPlaced? (members : List Member) (actor : UserId) :
    leadWith members actor = (leadPlaced? members actor).map (·.map (·.1)) := by
  have hothers (place : Nat) : (members.zipIdx.eraseIdx place).map Prod.fst = members.eraseIdx place := by
    rw [← List.eraseIdx_map, List.zipIdx_map_fst]
  refine Option.ext fun ordered => ?_
  rw [leadWith_eq_some, leads_iff_firstAt, Option.map_eq_some_iff]
  constructor
  · rintro ⟨place, first, hf, rfl⟩
    exact ⟨_, leadPlaced?_of_firstAt hf, by rw [List.map_cons, hothers]⟩
  · rintro ⟨placed, hp, rfl⟩
    obtain ⟨place, first, hf, rfl⟩ := leadPlaced?_eq_some.1 hp
    exact ⟨place, first, hf, by rw [List.map_cons, hothers]⟩

theorem leadWith_perm (h : leadWith members actor = some ordered) : ordered.Perm members := by
  rw [leadWith_eq_leadPlaced?] at h
  obtain ⟨placed, hp, rfl⟩ := Option.map_eq_some_iff.1 h
  have hperm := (leadPlaced?_perm hp).map Prod.fst
  rwa [List.zipIdx_map_fst] at hperm

/-- There is no order just if no entry is the actor's. Otherwise the first of the actor's entries is in front, and behind
it is all that is left of the room without that one entry, as it was, so that each entry is there as often as before.
Equal entries are not taken for one another: the order is found by a place alone, and takes every place once. -/
theorem actor_leads (members : List Member) (actor : UserId) :
    (leadWith members actor = none ↔ ∀ m ∈ members, m.id ≠ actor) ∧
    (∀ ordered, (leadWith members actor = some ordered ↔
        ∃ place first, FirstAt members actor place first ∧ ordered = first :: members.eraseIdx place) ∧
      (leadWith members actor = some ordered → ordered.Perm members)) ∧
    leadWith members actor = (leadPlaced? members actor).map (·.map (·.1)) ∧
    ∀ placed, leadPlaced? members actor = some placed →
      placed.Perm members.zipIdx ∧ placed.tail.Pairwise (·.2 < ·.2) :=
  ⟨leadWith_eq_none, fun _ => ⟨leadWith_eq_some.trans leads_iff_firstAt, leadWith_perm⟩,
    leadWith_eq_leadPlaced? members actor, fun _ h => ⟨leadPlaced?_perm h, leadPlaced?_pairwise h⟩⟩

/-- Two users with two equal entries each, and one of them with another name besides. -/
def twins : List Member := [⟨1, "ann"⟩, ⟨2, "bob"⟩, ⟨1, "ann"⟩, ⟨2, "bob"⟩, ⟨2, "rob"⟩]

theorem actor_leads_twins :
    leadWith twins 2 = some [⟨2, "bob"⟩, ⟨1, "ann"⟩, ⟨1, "ann"⟩, ⟨2, "bob"⟩, ⟨2, "rob"⟩] ∧
    leadWith twins 3 = none ∧
    ∃ placed, leadPlaced? twins 2 = some placed ∧ placed.Perm twins.zipIdx ∧ placed.map (·.2) = [1, 0, 2, 3, 4] := by
  obtain ⟨-, horder, -, hplaced⟩ := actor_leads twins 2
  obtain ⟨hnone, -⟩ := actor_leads twins 3
  have hfirst : FirstAt twins 2 1 ⟨2, "bob"⟩ := by
    refine ⟨rfl, rfl, fun i hi m hm => ?_⟩
    obtain rfl : i = 0 := Nat.lt_one_iff.1 hi
    cases hm
    decide
  have hlead := leadPlaced?_of_firstAt hfirst
  exact ⟨(horder _).1.2 ⟨1, _, hfirst, rfl⟩, hnone.2 (by decide), _, hlead, (hplaced _ hlead).1, rfl⟩

end Herald.Phrasing
