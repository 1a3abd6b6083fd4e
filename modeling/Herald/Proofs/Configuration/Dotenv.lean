import Herald.Configuration.Dotenv
import Herald.Proofs.Configuration
import Mathlib.Data.List.Induction

/-!
# Settings of the environment and of a file

A file adds to the environment what is not set there, and of several assignments to one name the first one. A
line is read in two steps: what it assigns to, which nothing else decides, and the value, which may name
variables. Whether there is a value does not depend on them. A value with the character that ends values in
the environment of a process cannot be set, and there is no way round it: reading breaks down.

* `statement?`, `said?`: what a line says.
* `assignments`: the assignments of a file, up to the first line that is malformed.
* `Environment.load_eq`: what a file adds to an environment, and which value it breaks down at.
* `Configuration.load_exact`: which configuration is found, and what makes no difference to it.
-/

namespace Herald

variable {e e' : Environment} {before : List (String × String)} {name : String}

/-! ## What is added to an environment -/

namespace Environment

/-- The assignments to names that are not set and were not assigned to before. -/
def fresh (e : Environment) (pairs : List (String × String)) : List (String × String) :=
  (pairs.zipIdx.filter fun p => ((e ++ pairs.take p.2).lookup p.1.1).isNone).map (·.1)

theorem fresh_concat (e : Environment) (before : List (String × String)) (p : String × String) :
    fresh e (before ++ [p]) =
      fresh e before ++ if ((e ++ before).lookup p.1).isNone then [p] else [] := by
  unfold fresh
  rw [List.zipIdx_append, List.filter_append, List.map_append]
  congr 1
  · refine congrArg (List.map _) (List.filter_congr fun q hq => ?_)
    have hlt : q.2 < before.length := (List.mem_zipIdx' hq).1
    rw [List.take_append_of_le_length (Nat.le_of_lt hlt)]
  · rw [List.zipIdx_singleton, List.filter_singleton, Nat.zero_add, List.take_left]
    cases ((e ++ before).lookup p.1).isNone <;> rfl

/-- What is left out has no effect on the value of any name. -/
theorem lookup_fresh (e : Environment) (before : List (String × String)) (name : String) :
    (e ++ fresh e before).lookup name = (e ++ before).lookup name := by
  induction before using List.reverseRecOn with
  | nil => rfl
  | append_singleton before p ih =>
    obtain ⟨n, v⟩ := p
    have happend : (e ++ (before ++ [(n, v)])).lookup name =
        ((e ++ before).lookup name).or ([(n, v)].lookup name) := by
      rw [← List.append_assoc, List.lookup_append]
    rw [fresh_concat, happend, ← List.append_assoc, List.lookup_append, ih]
    cases hn : (e ++ before).lookup n with
    | none => rfl
    | some w =>
      by_cases h : name = n
      · rw [h, hn]
        rfl
      · have hne : (name == n) = false := beq_eq_false_iff_ne.2 h
        simp [List.lookup_cons, hne]

theorem fresh_mono {pairs : List (String × String)} (h : before <+: pairs) : fresh e before <+: fresh e pairs := by
  obtain ⟨more, rfl⟩ := h
  induction more using List.reverseRecOn with
  | nil => exact (List.append_nil before).symm ▸ List.prefix_rfl
  | append_singleton more p ih =>
    rw [← List.append_assoc, fresh_concat]
    exact ih.trans (List.prefix_append _ _)

/-- What is added is the first assignment to each name that is not set. -/
theorem mem_fresh {value : String} : (name, value) ∈ fresh e before ↔
    e.lookup name = none ∧ before.lookup name = some value := by
  induction before using List.reverseRecOn with
  | nil => simp [fresh]
  | append_singleton before p ih =>
    obtain ⟨n, v⟩ := p
    rw [fresh_concat, List.mem_append, ih, List.lookup_append, List.lookup_append]
    by_cases h : name = n
    · subst h
      cases he : e.lookup name <;> cases hb : before.lookup name <;> simp [eq_comm]
    · have hne : (name == n) = false := beq_eq_false_iff_ne.2 h
      cases e.lookup n <;> cases before.lookup n <;> simp [List.lookup_cons, h, hne]

theorem assignIfUnset_of_isSome {value : String} (h : (e.lookup name).isSome = true) :
    e.assignIfUnset name value = .ok e := if_pos h

/-! ## What can be set -/

/-- Each of these values can be set. -/
def Settable (pairs : List (String × String)) : Prop := ∀ p ∈ pairs, terminator ∉ p.2.toList

/-- The first of these values that cannot be set. -/
def unsettable? (pairs : List (String × String)) : Option Unsettable :=
  (pairs.find? fun p => terminator ∈ p.2.toList).map fun p => ⟨p.1, p.2⟩

theorem unsettable?_eq_none {pairs : List (String × String)} : unsettable? pairs = none ↔ Settable pairs := by
  simp [unsettable?, Settable]

theorem unsettable?_eq_some {pairs : List (String × String)} {u : Unsettable} : unsettable? pairs = some u ↔
    ∃ before after, pairs = before ++ (u.name, u.value) :: after ∧ terminator ∈ u.value.toList ∧
      Settable before := by
  rw [unsettable?, Option.map_eq_some_iff]
  constructor
  · rintro ⟨p, hp, rfl⟩
    obtain ⟨hvalue, before, after, hpairs, hbefore⟩ := List.find?_eq_some_iff_append.1 hp
    exact ⟨before, after, hpairs, of_decide_eq_true hvalue, fun q hq => by simpa using hbefore q hq⟩
  · rintro ⟨before, after, hpairs, hvalue, hbefore⟩
    exact ⟨_, List.find?_eq_some_iff_append.2 ⟨decide_eq_true hvalue, before, after, hpairs,
      fun q hq => by simpa using hbefore q hq⟩, rfl⟩

theorem unsettable?_mono {pairs : List (String × String)} {u : Unsettable} (h : before <+: pairs)
    (hu : unsettable? before = some u) : unsettable? pairs = some u := by
  obtain ⟨more, rfl⟩ := h
  obtain ⟨first, after, rfl, hvalue, hfirst⟩ := unsettable?_eq_some.1 hu
  exact unsettable?_eq_some.2 ⟨first, after ++ more, by simp, hvalue, hfirst⟩

/-- An environment with what is added to it, unless some of the values cannot be set. -/
def extend (e : Environment) (pairs : List (String × String)) : Except Unsettable Environment :=
  match unsettable? pairs with
  | some u => .error u
  | none => .ok (e ++ pairs)

theorem extend_of_settable {pairs : List (String × String)} (h : unsettable? pairs = none) :
    e.extend pairs = .ok (e ++ pairs) := by rw [extend, h]

theorem extend_of_unsettable {pairs : List (String × String)} {u : Unsettable}
    (h : unsettable? pairs = some u) : e.extend pairs = .error u := by rw [extend, h]

/-- Setting one more variable is adding it to what was assigned before. -/
theorem assignIfUnset_fresh (h : unsettable? (fresh e before) = none) (name value : String) :
    (e ++ fresh e before).assignIfUnset name value = e.extend (fresh e (before ++ [(name, value)])) := by
  have hb := unsettable?_eq_none.1 h
  rw [assignIfUnset, lookup_fresh, fresh_concat]
  cases (e ++ before).lookup name with
  | some w =>
    show Except.ok (e ++ fresh e before) = e.extend (fresh e before ++ [])
    rw [List.append_nil, extend_of_settable h]
  | none =>
    by_cases hv : terminator ∈ value.toList
    · exact (if_pos hv).trans (extend_of_unsettable
        (unsettable?_eq_some.2 ⟨fresh e before, [], rfl, hv, hb⟩)).symm
    · have hsettable : Settable (fresh e before ++ [(name, value)]) := by
        intro p hp
        rcases List.mem_append.1 hp with hp | hp
        · exact hb p hp
        · rwa [List.mem_singleton.1 hp]
      have hext := extend_of_settable (e := e) (unsettable?_eq_none.2 hsettable)
      rw [← List.append_assoc] at hext
      exact (if_neg hv).trans hext.symm

end Environment

namespace Dotenv

open Environment

variable {line text : List Char}

/-! ## Lines -/

/-- What a line says. The text of a value is still to be read. -/
inductive Statement where
  | void
  | assignment (name : String) (text : List Char)

/-- What a line says; none if it assigns to nothing. -/
def statement? (line : List Char) : Option Statement :=
  let line := (Text.dropTail Text.isBlank line).dropWhile Text.isBlank
  if isVoid line then some .void
  else (assigned? line).map fun a => .assignment (String.ofList a.1) (a.2.dropWhile Text.isBlank)

/-- The value that a text says, given the variables that it may name; none if it is malformed. -/
def said? (vars : Environment) (text : List Char) : Option String :=
  if isVoid text then some "" else (value vars (.plain false) text).map String.ofList

/-- Reading a line is finding out what it says, and assigning that. -/
theorem loadLine_eq (e : Environment) (line : List Char) : loadLine e line =
    (statement? line).bind fun
      | .void => some (.ok e)
      | .assignment name text => (said? e text).map (e.assignIfUnset name) := by
  unfold loadLine statement?
  dsimp only
  split
  · rfl
  · cases assigned? ((Text.dropTail Text.isBlank line).dropWhile Text.isBlank) with
    | none => rfl
    | some a =>
      obtain ⟨name, rest⟩ := a
      simp only [Option.bind_eq_bind, Option.bind_some, Option.map_some, said?]
      split
      · rfl
      · cases value e (.plain false) (rest.dropWhile Text.isBlank) <;> rfl

theorem loadLine_void (h : statement? line = some .void) : loadLine e line = some (.ok e) := by
  rw [loadLine_eq, h]
  rfl

theorem loadLine_assignment (h : statement? line = some (.assignment name text)) :
    loadLine e line = (said? e text).map (e.assignIfUnset name) := by
  rw [loadLine_eq, h]
  rfl

/-! ## Values -/

/-- A value depends on its variables by what each of them is looked up as. -/
theorem value_congr (h : ∀ name, e.lookup name = e'.lookup name) (mode : Mode) (s : List Char) :
    value e mode s = value e' mode s := by
  have hs (name : List Char) : substitute e name = substitute e' name := by
    rw [substitute, substitute, h]
  fun_induction value e mode s <;> simp_all [value]

/-- Whether a text says a value does not depend on the variables. -/
theorem isSome_value (e e' : Environment) (mode : Mode) (s : List Char) :
    (value e mode s).isSome = (value e' mode s).isSome := by
  fun_induction value e mode s with
  | case13 weak c rest ih =>
    simp only [value]
    cases escape? c <;> simp [ih]
  | case19 weak name c rest hc hb hd ih =>
    rw [value, if_neg hc, if_neg hb, if_neg hd, Option.isSome_map, Option.isSome_map, ih]
  | _ => simp_all [value]

theorem said?_congr (h : ∀ name, e.lookup name = e'.lookup name) (text : List Char) :
    said? e text = said? e' text := by
  rw [said?, said?, value_congr h]

theorem isSome_said? (e e' : Environment) (text : List Char) :
    (said? e text).isSome = (said? e' text).isSome := by
  unfold said?
  split
  · rfl
  · rw [Option.isSome_map, Option.isSome_map, isSome_value e e']

/-! ## Files -/

/-- The assignments of lines, after those of the lines before, up to the first one that is malformed. A value
may name what is set, and otherwise what was assigned before. -/
def assignments (e : Environment) : List (String × String) → List (Option (List Char)) →
    List (String × String)
  | before, some line :: rest =>
    match statement? line with
    | none => before
    | some .void => assignments e before rest
    | some (.assignment name text) =>
      match said? (e ++ before) text with
      | none => before
      | some value => assignments e (before ++ [(name, value)]) rest
  | before, _ => before

/-- The assignments of a file, if there is one. -/
def assigned (e : Environment) : Option String → List (String × String)
  | some file => assignments e [] (lines file)
  | none => []

theorem prefix_assignments (e : Environment) (before : List (String × String))
    (ls : List (Option (List Char))) : before <+: assignments e before ls := by
  fun_induction assignments e before ls with
  | case2 before line rest h ih => exact ih
  | case4 before line rest name text h value hs ih => exact (List.prefix_append _ _).trans ih
  | _ => exact List.prefix_rfl

/-- Line by line, the environment has got what the lines before added to it. -/
theorem loadLines_eq (h : unsettable? (fresh e before) = none) (ls : List (Option (List Char))) :
    loadLines (e ++ fresh e before) ls = e.extend (fresh e (assignments e before ls)) := by
  fun_induction assignments e before ls with
  | case1 before line rest hl => rw [loadLines, loadLine_eq, hl]; exact (extend_of_settable h).symm
  | case2 before line rest hl ih => rw [loadLines, loadLine_void hl]; exact ih h
  | case3 before line rest name text hl hs =>
    rw [loadLines, loadLine_assignment hl, said?_congr (lookup_fresh e before), hs]
    exact (extend_of_settable h).symm
  | case4 before line rest name text hl value hs ih =>
    rw [loadLines, loadLine_assignment hl, said?_congr (lookup_fresh e before), hs, Option.map_some,
      assignIfUnset_fresh h]
    cases hu : unsettable? (fresh e (before ++ [(name, value)])) with
    | none => rw [extend_of_settable hu]; exact ih hu
    | some u =>
      -- what the rest of the file assigns comes too late
      rw [extend_of_unsettable hu, extend_of_unsettable
        (unsettable?_mono (fresh_mono (prefix_assignments e _ rest)) hu)]
  | case5 ls before hls =>
    unfold loadLines
    split
    · exact absurd rfl (hls _ _)
    · exact (extend_of_settable h).symm

/-- A line that never ends, or does not say what it assigns to or which value. -/
inductive Malformed : Option (List Char) → Prop
  | endless : Malformed none
  | statement {line : List Char} : statement? line = none → Malformed (some line)
  | value {line text : List Char} {name : String} : statement? line = some (.assignment name text) →
    said? [] text = none → Malformed (some line)

/-- Nothing is read from the first malformed line on. -/
theorem assignments_append_malformed {l : Option (List Char)} (hl : Malformed l) (e : Environment)
    (before : List (String × String)) (ls rest : List (Option (List Char))) :
    assignments e before (ls ++ l :: rest) = assignments e before ls := by
  fun_induction assignments e before ls with
  | case1 before line ls h => rw [List.cons_append, assignments, h]
  | case2 before line ls h ih => rw [List.cons_append, assignments, h]; exact ih
  | case3 before line ls name text h hs => simp only [List.cons_append, assignments, h, hs]
  | case4 before line ls name text h value hs ih => simp only [List.cons_append, assignments, h, hs, ih]
  | case5 ls before hls =>
    cases ls with
    | cons l' ls =>
      cases l' with
      | none => rfl
      | some line => exact absurd rfl (hls line ls)
    | nil =>
      cases hl with
      | endless => rfl
      | statement h => simp only [List.nil_append, assignments, h]
      | @value line text name h hs =>
        have hnone : said? (e ++ before) text = none := by
          have hsome := isSome_said? (e ++ before) [] text
          rw [hs] at hsome
          exact Option.not_isSome_iff_eq_none.1 (by simp [hsome])
        simp only [List.nil_append, assignments, h, hnone]

/-- Lines that say the same, or two values for a name that is set. -/
inductive Alike (e : Environment) : Option (List Char) → Option (List Char) → Prop
  | same (l : Option (List Char)) : Alike e l l
  | set {line line' text text' : List Char} {name : String} : (e.lookup name).isSome = true →
    statement? line = some (.assignment name text) → (said? e text).isSome = true →
    statement? line' = some (.assignment name text') → (said? e text').isSome = true →
    Alike e (some line) (some line')

/-- A line adds something to the environment, if only nothing at all. -/
theorem loadLine_append (h : loadLine e line = some (.ok e')) : ∃ added, e' = e ++ added := by
  rw [loadLine_eq] at h
  cases hs : statement? line with
  | none => simp [hs] at h
  | some s =>
    cases s with
    | void =>
      simp only [hs, Option.bind_some, Option.some.injEq, Except.ok.injEq] at h
      exact ⟨[], by rw [h, List.append_nil]⟩
    | assignment name text =>
      simp only [hs, Option.bind_some, Option.map_eq_some_iff] at h
      obtain ⟨value, -, hadd⟩ := h
      unfold assignIfUnset at hadd
      split at hadd
      · exact ⟨[], by rw [Except.ok.inj hadd, List.append_nil]⟩
      · split at hadd
        · cases hadd
        · exact ⟨[(name, value)], (Except.ok.inj hadd).symm⟩

/-- A well-formed line that assigns to a name that is set makes no difference. -/
theorem loadLine_set (hset : (e.lookup name).isSome = true)
    (h : statement? line = some (.assignment name text)) (hs : (said? e text).isSome = true) :
    loadLine e line = some (.ok e) := by
  obtain ⟨value, hv⟩ := Option.isSome_iff_exists.1 hs
  rw [loadLine_assignment h, hv, Option.map_some, assignIfUnset_of_isSome hset]

/-- Values for names that are set make no difference to what a file adds. -/
theorem loadLines_alike {added : List (String × String)} {ls ls' : List (Option (List Char))}
    (h : List.Forall₂ (Alike e) ls ls') : loadLines (e ++ added) ls = loadLines (e ++ added) ls' := by
  induction h generalizing added with
  | nil => rfl
  | @cons l l' ls ls' hl _ ih =>
    cases hl with
    | same =>
      cases l with
      | none => rfl
      | some line =>
        rw [loadLines, loadLines]
        match hline : loadLine (e ++ added) line with
        | none => rfl
        | some (.error u) => rfl
        | some (.ok later) =>
          obtain ⟨more, rfl⟩ := loadLine_append hline
          rw [List.append_assoc]
          exact ih
    | @set line line' text text' name hset hs hv hs' hv' =>
      have hset : ((e ++ added).lookup name).isSome = true := by simp [List.lookup_append, hset]
      rw [loadLines, loadLines, loadLine_set hset hs (isSome_said? e _ text ▸ hv),
        loadLine_set hset hs' (isSome_said? e _ text' ▸ hv')]
      exact ih

end Dotenv

open Dotenv Environment

/-- A file adds to an environment its first assignment to each name that is not set, unless one of them cannot
be set. -/
theorem Environment.load_eq (e : Environment) (file : String) :
    e.load file = e.extend (fresh e (assigned e (some file))) := by
  have h : loadLines (e ++ fresh e []) (lines file) = e.extend (fresh e (assigned e (some file))) :=
    loadLines_eq rfl (lines file)
  rwa [show fresh e [] = [] from rfl, List.append_nil] at h

theorem Environment.load_alike {file file' : String} (h : List.Forall₂ (Alike e) (lines file) (lines file')) :
    e.load file = e.load file' := by
  have h : loadLines (e ++ []) (lines file) = loadLines (e ++ []) (lines file') := loadLines_alike h
  rwa [List.append_nil] at h

/-! ## Errors -/

/-- The same error about pairs from another source. -/
def ConfigurationError.about (source : PairSource) : ConfigurationError → ConfigurationError
  | .pairs _ problem => .pairs source problem
  | .check problem => .check problem

/-- Errors that say the same, behind different words about where the pairs come from, if any. -/
def ConfigurationError.SaysAs (error error' : ConfigurationError) : Prop :=
  error.message = error'.message ∨ ∃ text,
    error.message = "Invalid or missing environmental variable: " ++ text ∧
    error'.message = "Invalid configuration: " ++ text

namespace Configuration

/-- Where pairs come from makes a difference to errors about them only. -/
theorem ofPairs_about (source source' : PairSource) (pairs : List (String × String)) :
    ofPairs source pairs = (ofPairs source' pairs).mapError (·.about source) := by
  unfold ofPairs
  cases (readPairs Draft.empty pairs).bind Draft.complete with
  | error problem => rfl
  | ok c =>
    simp only [Except.mapError, bind, Except.bind]
    cases c.problem? <;> rfl

theorem saysAs_about (error : ConfigurationError) :
    (error.about .environment).SaysAs (error.about .given) := by
  cases error with
  | pairs source problem => exact .inr ⟨problem.message, rfl, rfl⟩
  | check problem => exact .inl rfl

/-! ## What is found -/

/-- All that is set by an environment and the file beside it. -/
def settings (e : Environment) (file : Option String) : List (String × String) :=
  e ++ e.fresh (assigned e file)

theorem find_eq (e : Environment) (file : Option String) :
    find e file = (e.extend (e.fresh (assigned e file))).map (ofPairs .environment) := by
  cases file with
  | none =>
    have h : e.extend (e.fresh (assigned e none)) = .ok (e ++ []) := extend_of_settable rfl
    rw [h, List.append_nil]
    rfl
  | some file => exact congrArg (Except.map (ofPairs .environment)) (e.load_eq file)

theorem find_of_settable {file : Option String} (h : Settable (e.fresh (assigned e file))) :
    find e file = .ok (ofPairs .environment (settings e file)) := by
  rw [find_eq, extend_of_settable (unsettable?_eq_none.2 h)]
  rfl

theorem find_eq_error {file : Option String} {u : Unsettable} :
    find e file = .error u ↔ unsettable? (e.fresh (assigned e file)) = some u := by
  cases hu : unsettable? (e.fresh (assigned e file)) with
  | none => simp [find_of_settable (unsettable?_eq_none.1 hu)]
  | some v =>
    rw [find_eq, extend_of_unsettable hu]
    simp [Except.map]

/-- Something is found just if all that the file sets can be set. -/
theorem find_eq_ok {file : Option String} {found : Except ConfigurationError Configuration} :
    find e file = .ok found ↔
      Settable (e.fresh (assigned e file)) ∧ ofPairs .environment (settings e file) = found := by
  cases hu : unsettable? (e.fresh (assigned e file)) with
  | none =>
    have hs := unsettable?_eq_none.1 hu
    simp [find_of_settable hs, hs]
  | some u =>
    have hs : ¬Settable (e.fresh (assigned e file)) := fun h => by
      rw [unsettable?_eq_none.2 h] at hu
      cases hu
    simp [find_eq_error.2 hu, hs]

theorem toOption_ofPairs (source source' : PairSource) (pairs : List (String × String)) :
    (ofPairs source pairs).toOption = (ofPairs source' pairs).toOption := by
  rw [ofPairs_about source source']
  cases ofPairs source' pairs <;> rfl

/-- How an environment goes together with the file beside it. -/
structure Precedence (e : Environment) (file : Option String) : Prop where
  /-- Reading breaks down just if something that the file would set cannot be set, at the first such value. -/
  brokenDown : ∀ u, find e file = .error u ↔ ∃ before after,
    e.fresh (assigned e file) = before ++ (u.name, u.value) :: after ∧
    Environment.terminator ∈ u.value.toList ∧ Settable before
  /-- Otherwise the configuration is the one that is described by all that is set. -/
  found : ∀ c, find e file = .ok (.ok c) ↔
    Settable (e.fresh (assigned e file)) ∧ ofPairs .given (settings e file) = .ok c
  /-- What is wrong with what is found is what is wrong with these pairs. -/
  refused : ∀ error, find e file = .ok (.error error) →
    ∃ error', ofPairs .given (settings e file) = .error error' ∧ error.SaysAs error'
  /-- It does not matter in which order the settings come. -/
  ordered : ∀ found, find e file = .ok found → ∀ pairs, pairs.Perm (settings e file) →
    (ofPairs .given pairs).toOption = found.toOption
  /-- What is set in the environment stays as it is. -/
  kept : ∀ name value, e.lookup name = some value → (settings e file).lookup name = some value
  /-- The file sets what is not set in the environment, to what it assigns first. -/
  added : ∀ name value, (name, value) ∈ e.fresh (assigned e file) ↔
    e.lookup name = none ∧ (assigned e file).lookup name = some value
  /-- If there is no file, what is set is the environment. -/
  missing : file = none → settings e file = e
  /-- A malformed line is none of what is read, nor is anything after it. -/
  malformed : ∀ text, file = some text → ∀ before l rest, lines text = before ++ l :: rest → Malformed l →
    assigned e file = assignments e [] before
  /-- Values for names that are set in the environment do not matter. -/
  overridden : ∀ text text', file = some text → List.Forall₂ (Alike e) (lines text) (lines text') →
    find e file = find e (some text')

/-- The environment comes first, then the file, as far as it is well-formed. Nothing about the file is an
error by itself: it may be missing or malformed. Only a value that no environment can hold is too much. -/
theorem load_exact (e : Environment) (file : Option String) : Precedence e file where
  brokenDown u := find_eq_error.trans unsettable?_eq_some
  found c := by rw [find_eq_ok, ofPairs_eq_ok, ofPairs_eq_ok]
  refused error h := by
    obtain ⟨-, herror⟩ := find_eq_ok.1 h
    have hgiven : ofPairs .given (settings e file) = .error (error.about .given) := by
      rw [ofPairs_about .given .environment, herror]
      rfl
    have habout : error.about .environment = error := by
      have hsame := ofPairs_about .environment .environment (settings e file)
      rw [herror] at hsame
      exact (Except.error.inj hsame).symm
    have hsays := saysAs_about error
    rw [habout] at hsays
    exact ⟨_, hgiven, hsays⟩
  ordered found h pairs hp := by
    obtain ⟨-, rfl⟩ := find_eq_ok.1 h
    rw [toOption_ofPairs .environment .given]
    exact ofPairs_perm fun f => (hp.symm.filter _).map _
  kept name value h := by rw [settings, List.lookup_append, h]; rfl
  added name value := Environment.mem_fresh
  missing h := by
    subst h
    exact List.append_nil e
  malformed text h before l rest hlines hl := by
    subst h
    rw [assigned, hlines, assignments_append_malformed hl]
  overridden text text' h halike := by
    subst h
    exact congrArg (Except.map (ofPairs .environment)) (Environment.load_alike halike)

/-- A file that says how long histories are, at which port the service is (twice), and no more, since its fourth
line is malformed. -/
def settled : String := "HISTORY_CAP=4\nSERVER_PORT=$\x7bHISTORY_CAP\x7d\nSERVER_PORT=9\n?\nA=B"

/-- The same with another length. -/
def resettled : String := "HISTORY_CAP='no'\nSERVER_PORT=$\x7bHISTORY_CAP\x7d\nSERVER_PORT=9\n?\nA=B"

theorem load_exact_settled : ∃ c, find capped (some settled) = .ok (.ok c) ∧ c.historyCap = 12 ∧
    c.get .serverPort = (12 : UInt16) ∧ find capped (some resettled) = .ok (.ok c) := by
  have h := load_exact capped (some settled)
  have hadded : fresh capped (assigned capped (some settled)) = [("SERVER_PORT", "+012")] := by
    decide +kernel
  have hsettable : Settable (fresh capped (assigned capped (some settled))) := by
    rw [hadded]
    simp only [Settable, List.forall_mem_singleton]
    decide +kernel
  obtain ⟨c, hc⟩ : ∃ c, ofPairs .given (capped ++ [("SERVER_PORT", "+012")]) = .ok c := ⟨_, rfl⟩
  have hfound : find capped (some settled) = .ok (.ok c) :=
    (h.found c).2 ⟨hsettable, by rw [settings, hadded, hc]⟩
  have hnumbers : (ofPairs .given (capped ++ [("SERVER_PORT", "+012")])).toOption.map
      (fun c => (c.historyCap, (c.get .serverPort : UInt16))) = some (12, 12) := by
    decide +kernel
  rw [hc] at hnumbers
  obtain ⟨hcap, hport⟩ := Prod.mk.inj (Option.some.inj hnumbers)
  have halike : List.Forall₂ (Alike capped) (lines settled) (lines resettled) := by
    have hlines : lines settled = some "HISTORY_CAP=4".toList :: (lines settled).tail := by decide +kernel
    have hlines' : lines resettled = some "HISTORY_CAP='no'".toList :: (lines settled).tail := by
      decide +kernel
    rw [hlines, hlines']
    exact .cons (.set (show (capped.lookup "HISTORY_CAP").isSome = true by decide) rfl rfl rfl rfl)
      (List.forall₂_same.2 fun l _ => .same l)
  exact ⟨c, hfound, hcap, hport, h.overridden settled resettled rfl halike ▸ hfound⟩

/-- A file that says nothing but a value which no environment can hold. -/
def unholdable : String := "A=\x00"

/-- What is set would do, with a name that means nothing, but reading breaks down. -/
theorem find_unholdable : (∃ c, ofPairs .given (settings required (some unholdable)) = .ok c) ∧
    find required (some unholdable) = .error ⟨"A", "\x00"⟩ := by
  have hadded : fresh required (assigned required (some unholdable)) = [("A", "\x00")] := by
    decide +kernel
  refine ⟨⟨_, by rw [settings, hadded]; rfl⟩, find_eq_error.2 ?_⟩
  rw [hadded]
  decide +kernel

end Configuration

end Herald
