import Herald.Proofs.Json.Record

/-!
# How records are read

A record may be written as an object, among whose members stand its fields in any order, or as a list of its
fields. `Record` says what its fields are then, those that are left out as well, and `OptionalText` and
`OptionalList` say what may stand for parts that need not be there.

* `Source.fields?_eq_some`: how the fields of a record are found.
* `Source.optionalText_iff`, `Source.optionalList_iff`: optional parts.
-/

namespace Herald

theorem mapM_eq_some_iff {α β : Type} {f : α → Option β} {l : List α} {m : List β} :
    l.mapM f = some m ↔ List.Forall₂ (fun a b => f a = some b) l m := by
  refine ⟨forall₂_of_mapM_eq_some, fun h => ?_⟩
  induction h with
  | nil => rfl
  | cons hab _ ih => simp [hab, ih]

namespace Source

variable {names : List String} {least : Nat} {s : Source} {fields : List (Option Source)}
  {field : Option Source} {members : List (Option String × Source)} {name : String}

/-- What members hold under a name: nothing if none of them has it, and a value if just one has. -/
def Holds (members : List (Option String × Source)) (name : String) (field : Option Source) : Prop :=
  members.filter (·.1 == some name) = field.toList.map (some name, ·)

theorem member?_eq_some : member? members name = some field ↔ Holds members name field := by
  have hname : ∀ m ∈ members.filter (·.1 == some name), m.1 = some name := fun m hm =>
    beq_iff_eq.1 (List.mem_filter.1 hm).2
  unfold member? Holds
  generalize members.filter (·.1 == some name) = found at hname
  rcases found with - | ⟨⟨n, v⟩, - | ⟨m, rest⟩⟩
  · cases field <;> simp
  · obtain rfl : n = some name := hname _ (List.mem_singleton_self _)
    cases field <;> simp
  · cases field <;> simp

/-- The fields of a record in their order, those that are left out as well. -/
inductive Record (names : List String) (least : Nat) : Source → List (Option Source) → Prop
  /-- All names are valid, and no field has two values. -/
  | object {members : List (Option String × Source)} {fields : List (Option Source)} :
    (∀ m ∈ members, m.1.isSome) → List.Forall₂ (Holds members) names fields →
    Record names least (.object members) fields
  /-- Fields may be left out at the end. -/
  | list {items : List Source} : least ≤ items.length → items.length ≤ names.length →
    Record names least (.list items)
      (items.map some ++ List.replicate (names.length - items.length) none)

theorem names?_isSome : (names? members).isSome ↔ ∀ m ∈ members, m.1.isSome := by
  induction members with
  | nil => simp [names?]
  | cons m members ih =>
    rw [List.forall_mem_cons, ← ih, names?, names?, List.mapM_cons]
    cases m.1 <;> cases members.mapM (·.1) <;> simp

theorem fields?_eq_some : fields? names least s = some fields ↔ Record names least s fields := by
  constructor
  · intro h
    cases s with
    | object members =>
      obtain ⟨valid, hv, h⟩ := Option.bind_eq_some_iff.1 h
      exact .object (names?_isSome.1 (Option.isSome_of_eq_some hv))
        ((mapM_eq_some_iff.1 h).imp fun _ _ => member?_eq_some.1)
    | list items =>
      obtain ⟨⟨hl, hc⟩, h⟩ := Option.ite_none_right_eq_some.1 h
      cases h
      exact .list hl hc
    | _ => cases h
  · rintro (⟨hv, hf⟩ | ⟨hl, hc⟩)
    · obtain ⟨valid, hv⟩ := Option.isSome_iff_exists.1 (names?_isSome.2 hv)
      exact Option.bind_eq_some_iff.2 ⟨valid, hv, mapM_eq_some_iff.2 (hf.imp fun _ _ => member?_eq_some.2)⟩
    · exact if_pos ⟨hl, hc⟩

/-! ## Optional parts -/

/-- A text that may be left out or `null`. -/
inductive OptionalText : Option Source → Option String → Prop
  | absent : OptionalText none none
  | null : OptionalText (some .null) none
  | given (text : String) : OptionalText (some (.text (some text))) (some text)

theorem optionalText_iff {text : Option String} :
    defaulted? none (orNull? text?) field = some text ↔ OptionalText field text := by
  constructor
  · intro h
    rcases field with - | s
    · cases h; exact .absent
    · cases s with
      | null => cases h; exact .null
      | text t =>
        obtain ⟨t, rfl, rfl⟩ := Option.map_eq_some_iff.1 h
        exact .given t
      | _ => cases h
  · rintro (- | - | t) <;> rfl

/-- A list that may be left out, item by item. -/
inductive OptionalList {α : Type} (Item : Source → α → Prop) : Option Source → List α → Prop
  | absent : OptionalList Item none []
  | given {items : List Source} {values : List α} : List.Forall₂ Item items values →
    OptionalList Item (some (.list items)) values

theorem optionalList_iff {α : Type} {item? : Source → Option α} {Item : Source → α → Prop}
    (h : ∀ s a, item? s = some a ↔ Item s a) {values : List α} :
    defaulted? [] (list? item?) field = some values ↔ OptionalList Item field values := by
  constructor
  · intro hl
    rcases field with - | s
    · cases hl; exact .absent
    · cases s with
      | list items => exact .given ((mapM_eq_some_iff.1 hl).imp fun s a => (h s a).1)
      | _ => cases hl
  · rintro (- | hf)
    · rfl
    · exact mapM_eq_some_iff.2 (hf.imp fun s a => (h s a).2)

end Source

end Herald
