import Herald.Json.Real

/-!
# Values

`Json` is a value as it is written: the members of an object stand in a fixed order. In a
*canonical* value every object lists its members in ascending order of their names, without
repetition, and every integer fits 64 bits; free-form values are kept in this form, so that equal
contents are equal values.

* `isCanonical_insert`: putting a member into a canonical object keeps it canonical.
-/

namespace Herald

/-- A value; members of objects in the order in which they are written. -/
inductive Json where
  | null
  | bool (b : Bool)
  | integer (n : Int)
  | real (x : Json.Real)
  | text (s : String)
  | list (items : List Json)
  | object (members : List (String × Json))
deriving Repr, Inhabited

namespace Json

/-- The integers that a value may hold. -/
def integerFits (n : Int) : Bool := -(twoPow 63 : Int) ≤ n && n < twoPow 64

/-- The names ascend and none repeats. -/
def ascending : List String → Bool
  | a :: b :: rest => a < b && ascending (b :: rest)
  | _ => true

mutual

/-- Members ascend by name in every object, and every integer fits 64 bits. -/
def isCanonical : Json → Bool
  | .integer n => integerFits n
  | .list items => allCanonical items
  | .object members => ascending (members.map (·.1)) && allMembersCanonical members
  | _ => true

/-- Every item is canonical. -/
def allCanonical : List Json → Bool
  | [] => true
  | v :: rest => isCanonical v && allCanonical rest

/-- Every member's value is canonical. -/
def allMembersCanonical : List (String × Json) → Bool
  | [] => true
  | (_, v) :: rest => isCanonical v && allMembersCanonical rest

end

/-- Puts a member in its place by name; a member of that name gives way. -/
def insert (name : String) (v : Json) : List (String × Json) → List (String × Json)
  | [] => [(name, v)]
  | (n, w) :: rest =>
    if name < n then (name, v) :: (n, w) :: rest
    else if name = n then (name, v) :: rest
    else (n, w) :: insert name v rest

/-- A 64-bit identifier as a value. -/
def ofId (n : Int64) : Json := .integer n.toInt

/-- A list of identifiers as a value. -/
def ofIds (ns : List Int64) : Json := .list (ns.map ofId)

theorem isCanonical_ofId (n : Int64) : (ofId n).isCanonical = true := by
  have low := n.le_toInt
  have high := n.toInt_lt
  have h := twoPow_63
  have k := twoPow_64
  simp only [ofId, isCanonical, integerFits, Bool.and_eq_true, decide_eq_true_eq]
  omega

theorem isCanonical_ofIds (ns : List Int64) : (ofIds ns).isCanonical = true := by
  simp only [ofIds, isCanonical]
  induction ns with
  | nil => rfl
  | cons n ns ih => simp only [List.map_cons, allCanonical, isCanonical_ofId, ih, Bool.and_self]

/-- A member whose name is above `first` takes its place somewhere after it. -/
theorem ascending_cons_insert {name first : String} {v : Json} {members : List (String × Json)}
    (h : first < name) (hm : ascending (first :: members.map (·.1)) = true) :
    ascending (first :: (insert name v members).map (·.1)) = true := by
  induction members generalizing first with
  | nil => simpa [insert, ascending] using h
  | cons m rest ih =>
    obtain ⟨n, w⟩ := m
    simp only [List.map_cons, ascending, Bool.and_eq_true, decide_eq_true_eq] at hm
    unfold insert
    split
    · next hn => simp [ascending, h, hn, hm.2]
    · split
      · next hn => subst hn; simp [ascending, h, hm.2]
      · next hlt hne =>
        have hn : n < name :=
          Std.lt_of_le_of_ne (Std.not_lt.mp hlt) (fun e => hne e.symm)
        simpa [ascending, hm.1] using ih hn hm.2

theorem ascending_insert {name : String} {v : Json} {members : List (String × Json)}
    (hm : ascending (members.map (·.1)) = true) :
    ascending ((insert name v members).map (·.1)) = true := by
  cases members with
  | nil => rfl
  | cons m rest =>
    obtain ⟨n, w⟩ := m
    unfold insert
    split
    · next hn => simpa [ascending, hn] using hm
    · split
      · next hn => subst hn; simpa using hm
      · next hlt hne =>
        exact ascending_cons_insert (Std.lt_of_le_of_ne (Std.not_lt.mp hlt) fun e => hne e.symm) hm

theorem allMembersCanonical_insert {name : String} {v : Json} {members : List (String × Json)}
    (hv : v.isCanonical = true) (hm : allMembersCanonical members = true) :
    allMembersCanonical (insert name v members) = true := by
  induction members with
  | nil => simp [insert, allMembersCanonical, hv]
  | cons m rest ih =>
    obtain ⟨n, w⟩ := m
    simp only [allMembersCanonical, Bool.and_eq_true] at hm
    unfold insert
    split
    · simp [allMembersCanonical, hv, hm]
    · split <;> simp [allMembersCanonical, hv, hm, ih]

theorem isCanonical_insert {name : String} {v : Json} {members : List (String × Json)}
    (hv : v.isCanonical = true) (hm : (Json.object members).isCanonical = true) :
    (Json.object (insert name v members)).isCanonical = true := by
  simp only [isCanonical, Bool.and_eq_true] at hm ⊢
  exact ⟨ascending_insert hm.1, allMembersCanonical_insert hv hm.2⟩

end Json

/-- The members of a canonical object: the free-form arguments of a notification. -/
structure Arguments where
  members : List (String × Json)
  canonical : (Json.object members).isCanonical = true

namespace Arguments

/-- No arguments. -/
def empty : Arguments := ⟨[], rfl⟩

instance : EmptyCollection Arguments := ⟨empty⟩

/-- The arguments with one more; an argument of that name gives way. -/
def set (a : Arguments) (name : String) (v : Json) (h : v.isCanonical = true) : Arguments :=
  ⟨Json.insert name v a.members, Json.isCanonical_insert h a.canonical⟩

/-- The arguments as a value. -/
def toJson (a : Arguments) : Json := .object a.members

/-- The arguments that a value lists, if it is a canonical object. -/
def ofJson? : Json → Option Arguments
  | .object members =>
    if h : (Json.object members).isCanonical = true then some ⟨members, h⟩ else none
  | _ => none

end Arguments

end Herald
