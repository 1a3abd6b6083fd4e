import Herald.Proofs.Json.Reading
import Mathlib.Data.List.Chain

/-!
# Canonical values come back

A canonical value is what its source stands for: its members are in their places already, and its
integers fit.

* `insert_of_lt`: a member above all others takes the last place.
* `json?_toSource`: the value of what was read from a value's text.
* `depth_toSource`: reading keeps the depth.
* `Source.isSome_json?`: a source whose numbers are 64-bit integers has a value.
-/

namespace Herald.Json

/-! ## Depth -/

mutual

/-- How deeply lists and objects are nested. -/
def depth : Json → Nat
  | .list items => depthOfAll items + 1
  | .object members => depthOfMembers members + 1
  | _ => 0

/-- The greatest depth among items. -/
def depthOfAll : List Json → Nat
  | [] => 0
  | v :: rest => max (depth v) (depthOfAll rest)

/-- The greatest depth among the values of members. -/
def depthOfMembers : List (String × Json) → Nat
  | [] => 0
  | (_, v) :: rest => max (depth v) (depthOfMembers rest)

end

mutual

theorem depth_toSource (v : Json) : v.toSource.depth = v.depth := by
  cases v with
  | list items => simp only [toSource, Source.depth, depth, depthOfAll_sources items]
  | object members => simp only [toSource, Source.depth, depth, depthOfMembers_memberSources members]
  | _ => rfl

theorem depthOfAll_sources (vs : List Json) : Source.depthOfAll (sources vs) = depthOfAll vs := by
  cases vs with
  | nil => rfl
  | cons v vs =>
    simp only [sources, Source.depthOfAll, depthOfAll, depth_toSource v, depthOfAll_sources vs]

theorem depthOfMembers_memberSources (ms : List (String × Json)) :
    Source.depthOfMembers (memberSources ms) = depthOfMembers ms := by
  match ms with
  | [] => rfl
  | (_, v) :: ms =>
    simp only [memberSources, Source.depthOfMembers, depthOfMembers, depth_toSource v,
      depthOfMembers_memberSources ms]

end

@[simp] theorem isPlain_ofId (n : Int64) : (ofId n).isPlain = true := rfl

@[simp] theorem depth_ofId (n : Int64) : (ofId n).depth = 0 := rfl

variable {α : Type} {f : α → Json}

theorem allPlain_map (h : ∀ a, (f a).isPlain = true) (l : List α) : allPlain (l.map f) = true := by
  induction l with
  | nil => rfl
  | cons a l ih => exact Bool.and_eq_true_iff.2 ⟨h a, ih⟩

theorem depthOfAll_map (h : ∀ a, (f a).depth = 0) (l : List α) : depthOfAll (l.map f) = 0 := by
  induction l with
  | nil => rfl
  | cons a l ih => rw [List.map_cons, depthOfAll, h, ih]; rfl

/-! ## Places of members -/

theorem ascending_iff_pairwise {names : List String} :
    ascending names = true ↔ names.Pairwise (· < ·) := by
  rw [← List.isChain_iff_pairwise]
  induction names with
  | nil => simp [ascending]
  | cons a names ih =>
    cases names with
    | nil => simp [ascending]
    | cons b names => simp [ascending, ih]

/-- A member above all others takes the last place. -/
theorem insert_of_lt {name : String} {v : Json} {members : List (String × Json)}
    (h : ∀ m ∈ members, m.1 < name) : insert name v members = members ++ [(name, v)] := by
  induction members with
  | nil => rfl
  | cons m members ih =>
    obtain ⟨n, w⟩ := m
    have hn : n < name := h (n, w) (List.mem_cons_self ..)
    have hlt : ¬ name < n := Std.not_lt.mpr (Std.le_of_lt hn)
    have hne : ¬ name = n := fun e => Std.lt_irrefl (e ▸ hn)
    rw [insert, if_neg hlt, if_neg hne, ih fun m hm => h m (List.mem_cons_of_mem _ hm)]
    rfl

/-! ## Values -/

mutual

/-- The value of what was read from a value's text. -/
theorem json?_toSource (v : Json) (hp : v.isPlain = true) (hc : v.isCanonical = true) :
    v.toSource.json? = some v := by
  cases v with
  | integer n =>
    have h : integerFits n = true := hc
    simp [toSource, Source.json?, Source.number?, Numeral.integer?_ofInt, h]
  | real x => cases hp
  | list items => simp only [toSource, Source.json?, jsonOfAll?_sources items hp hc, Option.map_some]
  | object members =>
    obtain ⟨ha, hc⟩ := Bool.and_eq_true_iff.1 hc
    have e := jsonOfMembers?_memberSources members [] hp hc (ascending_iff_pairwise.1 ha)
    simp only [toSource, Source.json?, e, List.nil_append, Option.map_some]
  | _ => rfl

theorem jsonOfAll?_sources (vs : List Json) (hp : allPlain vs = true) (hc : allCanonical vs = true) :
    Source.jsonOfAll? (sources vs) = some vs := by
  cases vs with
  | nil => rfl
  | cons v vs =>
    obtain ⟨hp, hps⟩ := Bool.and_eq_true_iff.1 hp
    obtain ⟨hc, hcs⟩ := Bool.and_eq_true_iff.1 hc
    simp [sources, Source.jsonOfAll?, json?_toSource v hp hc, jsonOfAll?_sources vs hps hcs]

theorem jsonOfMembers?_memberSources (ms acc : List (String × Json))
    (hp : allMembersPlain ms = true) (hc : allMembersCanonical ms = true)
    (ha : (acc.map (·.1) ++ ms.map (·.1)).Pairwise (· < ·)) :
    Source.jsonOfMembers? (memberSources ms) acc = some (acc ++ ms) := by
  match ms with
  | [] => rw [List.append_nil]; rfl
  | (name, v) :: ms =>
    obtain ⟨hp, hps⟩ := Bool.and_eq_true_iff.1 hp
    obtain ⟨hc, hcs⟩ := Bool.and_eq_true_iff.1 hc
    have hl : ∀ m ∈ acc, m.1 < name := fun m hm => (List.pairwise_append.1 ha).2.2 _
      (List.mem_map_of_mem hm) _ (List.mem_cons_self ..)
    have e := jsonOfMembers?_memberSources ms (acc ++ [(name, v)]) hps hcs (by simpa using ha)
    simp [memberSources, Source.jsonOfMembers?, json?_toSource v hp hc, insert_of_lt hl, e]

end

end Herald.Json

/-! ## Sources of integers -/

namespace Herald

/-- The number is an integer that fits 64 bits, without fraction and exponent; `-0` is one, too. -/
def Numeral.isPlain (n : Numeral) : Bool :=
  n == ⟨true, [0], [], none⟩ || n.integer?.any Json.integerFits

namespace Source

mutual

/-- Every text is valid, and every number is a 64-bit integer. -/
def isPlain : Source → Bool
  | .number n => n.isPlain
  | .text s => s.isSome
  | .list items => allPlain items
  | .object members => allMembersPlain members
  | _ => true

/-- Every item is plain. -/
def allPlain : List Source → Bool
  | [] => true
  | v :: rest => isPlain v && allPlain rest

/-- Every member has a valid name and a plain value. -/
def allMembersPlain : List (Option String × Source) → Bool
  | [] => true
  | (name, v) :: rest => name.isSome && isPlain v && allMembersPlain rest

end

theorem isSome_number? {n : Numeral} (h : n.isPlain = true) : (number? n).isSome = true := by
  rcases Bool.or_eq_true_iff.1 h with h | h
  · have hz : (number? ⟨true, [0], [], none⟩).isSome = true := by decide +kernel
    rwa [beq_iff_eq.1 h]
  · cases hn : n.integer? with
    | none => simp [hn] at h
    | some i => simp [number?, hn, show Json.integerFits i = true by simpa [hn] using h]

mutual

/-- A source whose numbers are 64-bit integers has a value. -/
theorem isSome_json? (s : Source) (h : s.isPlain = true) : s.json?.isSome = true := by
  match s with
  | .null | .bool _ => rfl
  | .number _ => exact isSome_number? h
  | .text (some _) => rfl
  | .list items => simpa [json?] using isSome_jsonOfAll? items h
  | .object members => simpa [json?] using isSome_jsonOfMembers? members [] h

theorem isSome_jsonOfAll? (vs : List Source) (h : allPlain vs = true) :
    (jsonOfAll? vs).isSome = true := by
  match vs with
  | [] => rfl
  | v :: vs =>
    obtain ⟨hv, hvs⟩ := Bool.and_eq_true_iff.1 h
    obtain ⟨w, hw⟩ := Option.isSome_iff_exists.1 (isSome_json? v hv)
    obtain ⟨ws, hws⟩ := Option.isSome_iff_exists.1 (isSome_jsonOfAll? vs hvs)
    simp [jsonOfAll?, hw, hws]

theorem isSome_jsonOfMembers? (ms : List (Option String × Source)) (acc : List (String × Json))
    (h : allMembersPlain ms = true) : (jsonOfMembers? ms acc).isSome = true := by
  match ms with
  | [] => rfl
  | (none, _) :: _ => cases h
  | (some name, v) :: ms =>
    obtain ⟨hv, hms⟩ := Bool.and_eq_true_iff.1 h
    obtain ⟨w, hw⟩ := Option.isSome_iff_exists.1 (isSome_json? v hv)
    simpa [jsonOfMembers?, hw] using isSome_jsonOfMembers? ms (Json.insert name w acc) hms

end

@[simp] theorem isPlain_ofId (n : Int64) : (Json.ofId n).toSource.isPlain = true := by
  have h : Json.integerFits n.toInt = true := Json.isCanonical_ofId n
  simp [Json.ofId, Json.toSource, isPlain, Numeral.isPlain, Numeral.integer?_ofInt, h]

theorem allPlain_iff {vs : List Source} : allPlain vs = true ↔ ∀ v ∈ vs, v.isPlain = true := by
  induction vs with
  | nil => simp [allPlain]
  | cons v vs ih => simp [allPlain, ih]

theorem allMembersPlain_iff {ms : List (Option String × Source)} :
    allMembersPlain ms = true ↔ ∀ m ∈ ms, m.1.isSome = true ∧ m.2.isPlain = true := by
  induction ms with
  | nil => simp [allMembersPlain]
  | cons m ms ih => simp [allMembersPlain, ih]

end Source

end Herald
