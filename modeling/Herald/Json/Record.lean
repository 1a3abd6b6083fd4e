import Herald.Json.Source

/-!
# Records and enumerations

How the parts of a record are found in a source. A record is written as an object, whose unknown
members are passed over, or as a list of its fields in their order, where fields that have a
default may be missing at the end. A known member must not be given twice.
-/

namespace Herald.Source

/-- The valid names of members, if all of them are valid. -/
def names? (members : List (Option String × Source)) : Option (List String) :=
  members.mapM (·.1)

/-- The one member of that name; `some none` if there is none, `none` if there are several. -/
def member? (members : List (Option String × Source)) (name : String) : Option (Option Source) :=
  match members.filter (·.1 == some name) with
  | [] => some none
  | [(_, v)] => some (some v)
  | _ => none

/-- The fields of an object by name, each at most once. -/
def objectFields? (names : List String) : Source → Option (List (Option Source))
  | .object members => do
    let _ ← names? members
    names.mapM (member? members)
  | _ => none

/-- The fields of a list by position; at least `least` of them. -/
def listFields? (count least : Nat) : Source → Option (List (Option Source))
  | .list items =>
    if least ≤ items.length ∧ items.length ≤ count then
      some (items.map some ++ List.replicate (count - items.length) none)
    else none
  | _ => none

/-- The fields of a record, written as an object or as a list of at least `least` items. -/
def fields? (names : List String) (least : Nat) (s : Source) : Option (List (Option Source)) :=
  match s with
  | .object _ => objectFields? names s
  | .list _ => listFields? names.length least s
  | _ => none

/-- A field with a default. -/
def defaulted? {α : Type} (default : α) (value? : Source → Option α) : Option Source → Option α
  | none => some default
  | some s => value? s

/-- How an enumeration may be written. -/
inductive Spelling where
  /-- As its name, or as an object that maps its name to `null`. -/
  | strict
  /-- Also as an object that maps its name to an empty object. -/
  | loose
deriving DecidableEq

/-- The member of an enumeration that a source names. -/
def enumeration? {α : Type} (spelling : Spelling) (ofName? : String → Option α) : Source → Option α
  | .text s => s.bind ofName?
  | .object [(name, .null)] => name.bind ofName?
  | .object [(name, .object [])] => if spelling = .loose then name.bind ofName? else none
  | _ => none

end Herald.Source
