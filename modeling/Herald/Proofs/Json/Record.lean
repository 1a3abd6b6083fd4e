import Herald.Json.Record
import Herald.Proofs.Json.Reading
import Mathlib.Data.List.Nodup

/-!
# Fields come back

The fields of a record are found among the members of an object, whatever their order is and
whatever others there are.

* `id?_ofId`: identifiers.
* `HasMembers`, `objectFields?_of_hasMembers`: members in any order.
* `objectFields?_eq_some`: what an object holds whose fields were read.
* `fields?_object`: the fields of a record that was written as an object.
-/

namespace Herald

theorem mapM_eq_some_map {α β : Type} {f : α → Option β} {g : α → β} {l : List α}
    (h : ∀ a ∈ l, f a = some (g a)) : l.mapM f = some (l.map g) := by
  induction l with
  | nil => rfl
  | cons a l ih =>
    simp [h a (List.mem_cons_self ..), ih fun b hb => h b (List.mem_cons_of_mem _ hb)]

theorem forall₂_of_mapM_eq_some {α β : Type} {f : α → Option β} {l : List α} {m : List β}
    (h : l.mapM f = some m) : List.Forall₂ (fun a b => f a = some b) l m := by
  induction l generalizing m with
  | nil => cases h; exact .nil
  | cons a l ih =>
    rw [List.mapM_cons] at h
    obtain ⟨b, hb, h⟩ := Option.bind_eq_some_iff.1 h
    obtain ⟨bs, hbs, h⟩ := Option.bind_eq_some_iff.1 h
    cases h
    exact .cons hb (ih hbs)

namespace Source

theorem id?_ofId (n : Int64) : id? (Json.ofId n).toSource = some n := by
  have low := n.le_toInt
  have high := n.toInt_lt
  have h : -(twoPow 63 : Int) ≤ n.toInt ∧ n.toInt < twoPow 63 := by rw [twoPow_63]; omega
  simp [id?, Json.ofId, Json.toSource, integer?, Numeral.integer?_ofInt, h, Int64.ofInt_toInt]

theorem sources_eq_map (vs : List Json) : Json.sources vs = vs.map Json.toSource := by
  induction vs with
  | nil => rfl
  | cons v vs ih => rw [List.map_cons, ← ih]; rfl

/-- A list comes back if its items do. -/
theorem list?_toSource {α : Type} {item? : Source → Option α} {toJson : α → Json}
    (h : ∀ a, item? (toJson a).toSource = some a) (l : List α) :
    list? item? (Json.list (l.map toJson)).toSource = some l := by
  have hm := mapM_eq_some_map (l := l) (f := item? ∘ Json.toSource ∘ toJson) (g := id) fun a _ => h a
  rwa [List.map_id, ← List.mapM_map, ← List.map_map, ← sources_eq_map] at hm

/-! ## Members in any order -/

/-- Members that are known, in any order, among others that have other names. -/
def HasMembers (known : List (String × Source)) (members : List (Option String × Source)) : Prop :=
  ∃ others : List (String × Source), (∀ m ∈ others, m.1 ∉ known.map (·.1)) ∧
    members.Perm ((known ++ others).map fun m => (some m.1, m.2))

variable {known : List (String × Source)} {members : List (Option String × Source)} {name : String}
  {v : Source}

theorem HasMembers.exists_names (h : HasMembers known members) :
    ∃ names, names? members = some names := by
  obtain ⟨others, -, hp⟩ := h
  refine ⟨members.map fun m => m.1.getD "", mapM_eq_some_map fun m hm => ?_⟩
  obtain ⟨p, -, rfl⟩ := List.mem_map.1 (hp.mem_iff.1 hm)
  rfl

theorem filter_eq_nil (h : name ∉ known.map (·.1)) :
    (known.map fun m => (some m.1, m.2)).filter (·.1 == some name) = [] := by
  rw [List.filter_eq_nil_iff]
  intro p hp
  obtain ⟨m, hm, rfl⟩ := List.mem_map.1 hp
  have hne : m.1 ≠ name := fun e => h (e ▸ List.mem_map_of_mem hm)
  simpa using hne

theorem HasMembers.member? (h : HasMembers known members) (hn : (known.map (·.1)).Nodup)
    (hv : (name, v) ∈ known) : Source.member? members name = some (some v) := by
  obtain ⟨others, ho, hp⟩ := h
  obtain ⟨xs, ys, rfl⟩ := List.append_of_mem hv
  have ho : name ∉ others.map (·.1) := by
    intro hn
    obtain ⟨m, hm, e⟩ := List.mem_map.1 hn
    exact ho m hm (List.mem_map.2 ⟨(name, v), hv, e.symm⟩)
  rw [List.map_append, List.map_cons, List.nodup_middle, List.nodup_cons, List.mem_append,
    not_or] at hn
  have e := hp.filter (·.1 == some name)
  rw [List.map_append, List.map_append, List.filter_append, List.filter_append,
    filter_eq_nil hn.1.1, filter_eq_nil ho, List.map_cons, List.filter_cons_of_pos (by simp),
    filter_eq_nil hn.1.2] at e
  simp [Source.member?, List.perm_singleton.1 e]

/-- The fields of a record, in the order of the record. -/
theorem objectFields?_of_hasMembers (h : HasMembers known members)
    (hn : (known.map (·.1)).Nodup) :
    objectFields? (known.map (·.1)) (.object members) = some (known.map fun m => some m.2) := by
  obtain ⟨names, hs⟩ := h.exists_names
  have e : (known.map (·.1)).mapM (Source.member? members) =
      some (known.map fun m => some m.2) := by
    rw [List.mapM_map]
    exact mapM_eq_some_map fun m hm => h.member? hn hm
  simp [objectFields?, hs, e]

theorem memberSources_eq_map (ms : List (String × Json)) :
    Json.memberSources ms = ms.map fun m => (some m.1, m.2.toSource) := by
  induction ms with
  | nil => rfl
  | cons m ms ih => rw [List.map_cons, ← ih]; rfl

/-- Members as they were written. -/
theorem hasMembers_memberSources (ms : List (String × Json)) :
    HasMembers (ms.map fun m => (m.1, m.2.toSource)) (Json.memberSources ms) := by
  refine ⟨[], by simp, .of_eq ?_⟩
  rw [memberSources_eq_map, List.append_nil, List.map_map]
  rfl

/-- The fields of a record that was written as an object, in the order of the record. -/
theorem fields?_object (ms : List (String × Json)) (h : (ms.map (·.1)).Nodup) (least : Nat) :
    fields? (ms.map (·.1)) least (Json.object ms).toSource =
      some (ms.map fun m => some m.2.toSource) := by
  have e := objectFields?_of_hasMembers (hasMembers_memberSources ms)
    (by simpa [Function.comp_def] using h)
  simpa [Json.toSource, fields?, Function.comp_def] using e

/-! ## What is found -/

theorem filter_of_member? (h : member? members name = some (some v)) :
    ∃ n, members.filter (·.1 == some name) = [(n, v)] := by
  unfold member? at h
  split at h
  · cases h
  · next n v' e => cases h; exact ⟨n, e⟩
  · cases h

theorem mem_of_member? (h : member? members name = some (some v)) : (some name, v) ∈ members := by
  obtain ⟨n, e⟩ := filter_of_member? h
  obtain ⟨hm, hn⟩ := List.mem_filter.1 (e ▸ List.mem_singleton_self (n, v))
  rwa [← beq_iff_eq.1 hn]

theorem countP_of_member? (h : member? members name = some (some v)) :
    members.countP (·.1 == some name) = 1 := by
  obtain ⟨n, e⟩ := filter_of_member? h
  rw [List.countP_eq_length_filter, e]
  rfl

theorem eq_of_member? (h : member? members name = some (some v)) {v' : Source}
    (hm : (some name, v') ∈ members) : v' = v := by
  obtain ⟨n, e⟩ := filter_of_member? h
  have hf : (some name, v') ∈ members.filter (·.1 == some name) :=
    List.mem_filter.2 ⟨hm, by simp⟩
  rw [e] at hf
  cases List.mem_singleton.1 hf
  rfl

/-- The fields of an object, each found by its name. -/
theorem objectFields?_eq_some {names : List String} {s : Source} {fields : List (Option Source)}
    (h : objectFields? names s = some fields) : ∃ members, s = .object members ∧
      List.Forall₂ (fun name field => Source.member? members name = some field) names fields := by
  cases s with
  | object members =>
    obtain ⟨-, -, h⟩ := Option.bind_eq_some_iff.1 h
    exact ⟨members, rfl, forall₂_of_mapM_eq_some h⟩
  | _ => cases h

end Source

end Herald
