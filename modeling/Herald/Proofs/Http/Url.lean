import Herald.Proofs.Http.Escape
import Mathlib.Data.List.DropRight
import Mathlib.Data.List.TakeWhile

/-!
# What stands under an address

An address that ends with a slash is a place, and what is written after the slash is read on its own:
its path is resolved from that place on, and scheme, host and port stay what they are.

* `resolve_append`: the segments before the last ones are places on the way.
* `isDots_cases`: only dots mean places, as they are or escaped.
* `parse?_eq`: an address is read in parts, each of which has a name here.
* `parse?_under`: the address of what stands under a place.
-/

namespace Herald.Url

variable {p separates : Char → Bool} {c d : Char} {cs xs : List Char}

/-! ## Up to a character -/

theorem takeWhile_append_cons (xs ys : List Char) (h : p c = false) :
    (xs ++ c :: ys).takeWhile p = xs.takeWhile p := by
  induction xs with
  | nil => simp [h]
  | cons x xs ih => cases hx : p x <;> simp [hx, ih]

theorem dropWhile_append_cons (xs ys : List Char) (h : p c = false) :
    (xs ++ c :: ys).dropWhile p = xs.dropWhile p ++ c :: ys := by
  induction xs with
  | nil => simp [h]
  | cons x xs ih => cases hx : p x <;> simp [hx, ih]

/-! ## Segments -/

theorem piecesFrom_append_cons (hc : separates c = true) (piece xs ys : List Char) :
    piecesFrom separates piece (xs ++ c :: ys) = piecesFrom separates piece xs ++ piecesFrom separates [] ys := by
  induction xs generalizing piece with
  | nil => simp [piecesFrom, hc]
  | cons x xs ih => cases hx : separates x <;> simp [piecesFrom, hx, ih]

theorem piecesFrom_eq_singleton (h : ∀ c ∈ cs, separates c = false) (piece : List Char) :
    piecesFrom separates piece cs = [piece.reverse ++ cs] := by
  induction cs generalizing piece with
  | nil => simp [piecesFrom]
  | cons x xs ih =>
    obtain ⟨hx, hxs⟩ := List.forall_mem_cons.1 h
    simp [piecesFrom, hx, ih hxs]

theorem segments_append_cons (hc : isSlash c = true) (xs ys : List Char) :
    segments (xs ++ c :: ys) = segments xs ++ segments ys :=
  piecesFrom_append_cons hc [] xs ys

theorem segments_eq_singleton (h : ∀ c ∈ cs, isSlash c = false) : segments cs = [cs] :=
  piecesFrom_eq_singleton h []

/-- What follows the last slash. -/
def lastSegment (cs : List Char) : List Char := cs.rtakeWhile fun c => !isSlash c

theorem isSlash_of_mem_lastSegment (h : c ∈ lastSegment cs) : isSlash c = false := by
  simpa using List.mem_rtakeWhile_imp h

/-- The segments of a path end with what follows its last slash. -/
theorem segments_eq_concat (cs : List Char) : ∃ before, segments cs = before ++ [lastSegment cs] := by
  have hlast : segments (lastSegment cs) = [lastSegment cs] :=
    segments_eq_singleton fun _ => isSlash_of_mem_lastSegment
  have hsplit : cs.rdropWhile (fun c => !isSlash c) ++ lastSegment cs = cs := List.rdropWhile_append_rtakeWhile
  by_cases hnil : cs.rdropWhile (fun c => !isSlash c) = []
  · rw [hnil, List.nil_append] at hsplit
    exact ⟨[], by rw [hsplit] at hlast; simpa [hsplit] using hlast⟩
  · have hslash := List.rdropWhile_last_not (fun c => !isSlash c) cs hnil
    have hconcat := List.dropLast_append_getLast hnil
    refine ⟨segments (cs.rdropWhile fun c => !isSlash c).dropLast, ?_⟩
    conv_lhs => rw [← hsplit, ← hconcat, List.append_assoc, List.singleton_append]
    rw [segments_append_cons (by simpa using hslash), hlast]

/-- A segment that means the place where it stands, or the one above. -/
def isDots (segment : List Char) : Bool := isDoubleDot segment || isSingleDot segment

/-- Where a segment leads to from the place that the segments in `above` lead to, last first. -/
def enter (above : List (List Char)) (segment : List Char) : List (List Char) :=
  if isDoubleDot segment then above.tail
  else if isSingleDot segment then above
  else escape unfitPath segment :: above

/-- The segments before others lead to the place from which those are resolved. -/
theorem resolve_append (above xs ys : List (List Char)) (h : ys ≠ []) :
    resolve above (xs ++ ys) = resolve (xs.foldl enter above) ys := by
  induction xs generalizing above with
  | nil => rfl
  | cons s xs ih =>
    obtain ⟨y, rest, hrest⟩ := List.exists_cons_of_ne_nil (List.append_ne_nil_of_right_ne_nil xs h)
    rw [List.foldl_cons, List.cons_append, ← ih, hrest, resolve, enter]
    · split
      · rfl
      · split <;> rfl
    · nofun

theorem resolve_singleton (above : List (List Char)) (s : List Char) :
    resolve above [s] = (if isDoubleDot s then above.tail else above).reverse ++
      [if isDots s then [] else escape unfitPath s] := by
  cases hdouble : isDoubleDot s <;> cases hsingle : isSingleDot s <;> simp [resolve, isDots, hdouble, hsingle]

/-- The end of a path is its last segment, unless that means a place. -/
theorem resolve_segments_eq_concat (above : List (List Char)) (cs : List Char) : ∃ before,
    resolve above (segments cs) = before ++
      [if isDots (lastSegment cs) then [] else escape unfitPath (lastSegment cs)] := by
  obtain ⟨before, h⟩ := segments_eq_concat cs
  rw [h, resolve_append _ _ _ (List.cons_ne_nil _ _), resolve_singleton]
  exact ⟨_, rfl⟩

/-! ## Dots -/

/-- A character is its own lower case, or an ASCII letter so far before it. -/
theorem eq_of_toLower_eq (h : c.toLower = d) : c = d ∨ 97 ≤ d.toNat ∧ c.toNat + 32 = d.toNat := by
  subst h
  unfold Char.toLower
  split
  · next h =>
    have hlow : 65 ≤ c.toNat := UInt32.le_iff_toNat_le.1 h.1
    have hhigh : c.toNat ≤ 90 := UInt32.le_iff_toNat_le.1 h.2
    have hval : (c.val + ('a'.val - 'A'.val)).toNat = c.toNat + 32 := by
      rw [UInt32.toNat_add]
      exact Nat.mod_eq_of_lt (Nat.lt_of_le_of_lt (Nat.add_le_add_right hhigh 32) (by decide))
    right
    show 97 ≤ (c.val + ('a'.val - 'A'.val)).toNat ∧ c.toNat + 32 = (c.val + ('a'.val - 'A'.val)).toNat
    omega
  · exact .inl rfl

theorem eq_of_toLower_eq_of_lt (h : c.toLower = d) (hd : d.toNat < 97) : c = d := by
  rcases eq_of_toLower_eq h with h | ⟨hle, -⟩
  · exact h
  · omega

theorem hexValue?_of_toLower_eq (h : c.toLower = 'e') : hexValue? c ≠ none := by
  rcases eq_of_toLower_eq h with rfl | ⟨-, hsum⟩
  · decide
  · have hE : c = 'E' := Char.toNat_inj.1 (Nat.add_right_cancel (m := 32) hsum)
    rw [hE]
    decide

theorem exists_of_lower_eq_dot (xs : List Char) (h : cs.map Char.toLower = '.' :: xs) :
    ∃ rest, cs = '.' :: rest ∧ rest.map Char.toLower = xs := by
  obtain ⟨c, rest, rfl, hc, hrest⟩ := List.map_eq_cons_iff.1 h
  rw [eq_of_toLower_eq_of_lt hc (by decide)]
  exact ⟨rest, rfl, hrest⟩

theorem holdsEscape_of_lower_eq (xs : List Char) (h : cs.map Char.toLower = '%' :: '2' :: 'e' :: xs) :
    HoldsEscape cs := by
  obtain ⟨c, cs, rfl, hc, h⟩ := List.map_eq_cons_iff.1 h
  obtain ⟨d, cs, rfl, hd, h⟩ := List.map_eq_cons_iff.1 h
  obtain ⟨e, cs, rfl, he, h⟩ := List.map_eq_cons_iff.1 h
  rw [eq_of_toLower_eq_of_lt hc (by decide), eq_of_toLower_eq_of_lt hd (by decide)]
  exact ⟨'2', e, by decide, hexValue?_of_toLower_eq he, List.prefix_append ['%', '2', e] cs |>.isInfix⟩

/-- Only dots mean places, as they are or escaped. -/
theorem isDots_cases (h : isDots cs = true) : cs = ['.'] ∨ cs = ['.', '.'] ∨ HoldsEscape cs := by
  have hlower (s : String) : String.ofList (cs.map Char.toLower) = s ↔ cs.map Char.toLower = s.toList :=
    ⟨fun h => by rw [← h, String.toList_ofList], fun h => by rw [h, String.ofList_toList]⟩
  simp only [isDots, isDoubleDot, isSingleDot, Bool.or_eq_true, List.contains_iff_mem, List.mem_cons,
    List.not_mem_nil, or_false, hlower] at h
  rcases h with (h | h | h | h) | h | h
  · obtain ⟨rest, rfl, hrest⟩ := exists_of_lower_eq_dot ['.'] h
    obtain ⟨last, rfl, hlast⟩ := exists_of_lower_eq_dot [] hrest
    rw [List.map_eq_nil_iff.1 hlast]
    exact .inr (.inl rfl)
  · obtain ⟨rest, rfl, hrest⟩ := exists_of_lower_eq_dot ['%', '2', 'e'] h
    exact .inr (.inr ((holdsEscape_of_lower_eq [] hrest).cons _))
  · exact .inr (.inr (holdsEscape_of_lower_eq ['.'] h))
  · exact .inr (.inr (holdsEscape_of_lower_eq ['%', '2', 'e'] h))
  · obtain ⟨rest, rfl, hrest⟩ := exists_of_lower_eq_dot [] h
    rw [List.map_eq_nil_iff.1 hrest]
    exact .inl rfl
  · exact .inr (.inr (holdsEscape_of_lower_eq [] h))

/-! ## Blanks -/

/-- Control characters and blanks count for nothing at either end. -/
def isBlank (c : Char) : Bool := c.toNat ≤ 0x20

/-- Tabs and line ends count for nothing anywhere. -/
def isBreak (c : Char) : Bool := ['\t', '\n', '\r'].contains c

/-- What remains of the end of a text. -/
def tidyEnd (cs : List Char) : List Char := (cs.rdropWhile isBlank).filter fun c => !isBreak c

/-- A slash is no blank, so what stands before it and after it is tidied on its own. -/
theorem tidy_append_slash (cs tail : List Char) :
    tidy (cs ++ '/' :: tail) = (cs.dropWhile isBlank).filter (fun c => !isBreak c) ++ '/' :: tidyEnd tail := by
  have hslash : isBlank '/' = false := by decide
  have hend (xs : List Char) : (xs ++ '/' :: tail).rdropWhile isBlank = xs ++ '/' :: tail.rdropWhile isBlank := by
    simp [List.rdropWhile, dropWhile_append_cons _ _ hslash]
  have htidy (xs : List Char) :
      tidy xs = ((xs.dropWhile isBlank).rdropWhile isBlank).filter fun c => !isBreak c := rfl
  rw [htidy, dropWhile_append_cons _ _ hslash, hend, List.filter_append, List.filter_cons,
    if_pos (by decide), tidyEnd]

/-! ## Path and query -/

/-- What comes before the fragment and the query. -/
def pathPart (cs : List Char) : List Char := (cs.takeWhile (· != '#')).takeWhile (· != '?')

/-- The query, escaped. -/
def queryPart (cs : List Char) : Option (List Char) :=
  match (cs.takeWhile (· != '#')).dropWhile (· != '?') with
  | _ :: q => some (escape unfitQuery q)
  | [] => none

/-- A text without query and fragment. -/
def IsBare (cs : List Char) : Prop := '?' ∉ cs ∧ '#' ∉ cs

theorem IsBare.mono (h : IsBare cs) (hsub : xs ⊆ cs) : IsBare xs :=
  ⟨fun hmem => h.1 (hsub hmem), fun hmem => h.2 (hsub hmem)⟩

theorem IsBare.append (h : IsBare cs) (hxs : IsBare xs) : IsBare (cs ++ xs) := by
  simp only [IsBare, List.mem_append, not_or]
  exact ⟨⟨h.1, hxs.1⟩, h.2, hxs.2⟩

theorem pathPart_append (h : IsBare cs) (tail : List Char) : pathPart (cs ++ tail) = cs ++ pathPart tail := by
  unfold pathPart
  rw [List.takeWhile_append_of_pos, List.takeWhile_append_of_pos]
  · exact fun c hc => bne_iff_ne.2 (ne_of_mem_of_not_mem hc h.1)
  · exact fun c hc => bne_iff_ne.2 (ne_of_mem_of_not_mem hc h.2)

theorem ne_of_mem_pathPart (h : c ∈ pathPart cs) : c ≠ '?' ∧ c ≠ '#' :=
  ⟨by simpa using List.mem_takeWhile_imp h,
    by simpa using List.mem_takeWhile_imp ((List.takeWhile_sublist _).subset h)⟩

theorem queryPart_append (h : IsBare cs) (tail : List Char) : queryPart (cs ++ tail) = queryPart tail := by
  unfold queryPart
  rw [List.takeWhile_append_of_pos, List.dropWhile_append_of_pos]
  · exact fun c hc => bne_iff_ne.2 (ne_of_mem_of_not_mem hc h.1)
  · exact fun c hc => bne_iff_ne.2 (ne_of_mem_of_not_mem hc h.2)

theorem pathPart_slash (tail : List Char) : pathPart ('/' :: tail) = '/' :: pathPart tail := by
  simp [pathPart]

theorem queryPart_slash (tail : List Char) : queryPart ('/' :: tail) = queryPart tail := by
  simp [queryPart]

/-! ## Reading in parts -/

/-- A character that does not end the authority. -/
def goesOn (c : Char) : Bool := !(isSlash c || c = '?' || c = '#')

/-- A path without its first slash. -/
def belowRoot : List Char → List Char
  | c :: rest => if isSlash c then rest else c :: rest
  | [] => []

/-- The address that the text after a scheme is. -/
def readAfter? (isSecure : Bool) (cs : List Char) : Option Url :=
  let cs := cs.dropWhile isSlash
  (place? isSecure (cs.takeWhile goesOn)).map fun (user, host, port) =>
    let cs := cs.dropWhile goesOn
    { isSecure, user, host, port, path := resolve [] (segments (belowRoot (pathPart cs))), query := queryPart cs }

/-- The address that a text without blanks is. -/
def read? (cs : List Char) : Option Url := (scheme? cs).bind fun (isSecure, rest) => readAfter? isSecure rest

theorem parse?_eq (s : String) : parse? s = read? (tidy s.toList) := by
  have hends : (fun c => !(isSlash c || decide (c = '?') || decide (c = '#'))) = goesOn := rfl
  unfold parse? read? readAfter?
  cases scheme? (tidy s.toList) with
  | none => rfl
  | some p =>
    obtain ⟨isSecure, cs⟩ := p
    simp only [Option.bind_eq_bind, Option.bind_some, hends]
    generalize List.dropWhile goesOn _ = rest
    cases place? isSecure _ with
    | none => rfl
    | some place =>
      unfold pathPart queryPart
      cases List.takeWhile (· != '?') _ <;> rfl

/-- Whether a scheme asks for encryption. -/
def isSecure? (name : List Char) : Option Bool :=
  match String.ofList (name.map Char.toLower) with
  | "http" => some false
  | "https" => some true
  | _ => none

theorem scheme?_append_cons (h : ':' ∉ xs) (ys : List Char) :
    scheme? (xs ++ ':' :: ys) = (isSecure? xs).map fun isSecure => (isSecure, ys) := by
  have hxs : ∀ c ∈ xs, (c != ':') = true := fun c hc => bne_iff_ne.2 (ne_of_mem_of_not_mem hc h)
  have hdrop : (xs ++ ':' :: ys).dropWhile (· != ':') = ':' :: ys := by
    rw [List.dropWhile_append_of_pos hxs]
    rfl
  have htake : (xs ++ ':' :: ys).takeWhile (· != ':') = xs := by
    rw [List.takeWhile_append_of_pos hxs]
    exact List.append_nil _
  unfold scheme? isSecure?
  simp only [hdrop, htake]
  split <;> simp [*]

theorem scheme?_eq_none (h : ':' ∉ cs) : scheme? cs = none := by
  have hcs : cs.dropWhile (· != ':') = [] :=
    List.dropWhile_eq_nil_iff.2 fun c hc => bne_iff_ne.2 (ne_of_mem_of_not_mem hc h)
  simp only [scheme?, hcs]

/-! ## Under a place -/

/-- What follows the authority of a place begins with a slash: one that ends the authority, or the one at the
end of the place. -/
theorem exists_segments_after (h : IsBare cs) : ∃ before, ∀ tail,
    segments (belowRoot (pathPart (cs.dropWhile goesOn ++ '/' :: tail))) = before ++ segments (pathPart tail) := by
  have hbare : IsBare (cs.dropWhile goesOn) := h.mono (List.dropWhile_suffix _).subset
  have hends := List.head?_dropWhile_not goesOn cs
  generalize cs.dropWhile goesOn = rest at hbare hends
  simp only [pathPart_append hbare, pathPart_slash]
  cases rest with
  | nil => exact ⟨[], fun tail => rfl⟩
  | cons c rest =>
    have hslash : isSlash c = true := by
      have hne : c ≠ '?' ∧ c ≠ '#' :=
        ⟨fun e => hbare.1 (e ▸ List.mem_cons_self), fun e => hbare.2 (e ▸ List.mem_cons_self)⟩
      simpa [goesOn, hne] using hends
    refine ⟨segments rest, fun tail => ?_⟩
    rw [List.cons_append, belowRoot, if_pos hslash, segments_append_cons (by decide)]

theorem queryPart_after (h : IsBare cs) (tail : List Char) :
    queryPart (cs.dropWhile goesOn ++ '/' :: tail) = queryPart tail := by
  rw [queryPart_append (h.mono (List.dropWhile_suffix _).subset), queryPart_slash]

/-- The segments of what stands under a place follow those that lead to the place. -/
theorem readAfter?_under (hbare : IsBare cs) {isSecure : Bool} {u : Url}
    (h : readAfter? isSecure (cs ++ ['/']) = some u) :
    ∃ before, ∀ tail, readAfter? isSecure (cs ++ '/' :: tail) =
      some { u with path := resolve [] (before ++ segments (pathPart tail)), query := queryPart tail } := by
  by_cases hnil : cs.dropWhile isSlash = []
  · -- there is no authority
    have hall : (cs ++ ['/']).dropWhile isSlash = [] := by
      rw [List.dropWhile_append_of_pos (List.dropWhile_eq_nil_iff.1 hnil)]
      rfl
    rw [readAfter?, hall] at h
    cases h
  · have hdrop (tail : List Char) : (cs ++ '/' :: tail).dropWhile isSlash = cs.dropWhile isSlash ++ '/' :: tail := by
      rw [List.dropWhile_append, if_neg (by simpa using hnil)]
    have hbody : IsBare (cs.dropWhile isSlash) := hbare.mono (List.dropWhile_suffix _).subset
    generalize cs.dropWhile isSlash = body at hdrop hbody
    have hauthority (tail : List Char) : (body ++ '/' :: tail).takeWhile goesOn = body.takeWhile goesOn :=
      takeWhile_append_cons body tail (by decide)
    have hafter (tail : List Char) : (body ++ '/' :: tail).dropWhile goesOn = body.dropWhile goesOn ++ '/' :: tail :=
      dropWhile_append_cons body tail (by decide)
    simp only [readAfter?, hdrop, hauthority, hafter, queryPart_after hbody] at h ⊢
    obtain ⟨before, hbefore⟩ := exists_segments_after hbody
    obtain ⟨⟨user, host, port⟩, hplace, rfl⟩ := Option.map_eq_some_iff.1 h
    refine ⟨before, fun tail => ?_⟩
    rw [hplace, Option.map_some, hbefore]

theorem read?_under (hbare : IsBare cs) {u : Url} (h : read? (cs ++ ['/']) = some u) :
    ∃ before, ∀ tail, read? (cs ++ '/' :: tail) =
      some { u with path := resolve [] (before ++ segments (pathPart tail)), query := queryPart tail } := by
  by_cases hcolon : ':' ∈ cs
  · obtain ⟨name, rest, rfl, hname⟩ := List.eq_append_cons_of_mem hcolon
    simp only [List.append_assoc, List.cons_append, read?, scheme?_append_cons hname] at h ⊢
    cases hsecure : isSecure? name with
    | none =>
      rw [hsecure] at h
      cases h
    | some isSecure =>
      rw [hsecure] at h
      exact readAfter?_under (hbare.mono fun c hc => by simp [hc]) h
  · rw [read?, scheme?_eq_none (by simpa using hcolon)] at h
    cases h

/-- What stands under a place is read from there on. -/
theorem parse?_under {base : String} {u : Url} (hbare : IsBare base.toList)
    (h : parse? (base ++ "/") = some u) (tail : String) :
    parse? (base ++ "/" ++ tail) = some { u with
      path := resolve u.path.dropLast.reverse (segments (pathPart (tidyEnd tail.toList)))
      query := queryPart (tidyEnd tail.toList) } := by
  have hread (tail : String) : parse? (base ++ "/" ++ tail) =
      read? ((base.toList.dropWhile isBlank).filter (fun c => !isBreak c) ++ '/' :: tidyEnd tail.toList) := by
    rw [parse?_eq, ← tidy_append_slash]
    simp
  have hbody : IsBare ((base.toList.dropWhile isBlank).filter fun c => !isBreak c) :=
    hbare.mono (List.Subset.trans (List.filter_subset_self _) (List.dropWhile_suffix _).subset)
  have hplace : read? ((base.toList.dropWhile isBlank).filter (fun c => !isBreak c) ++ ['/']) = some u := by
    rw [← h, ← String.append_empty (s := base ++ "/"), hread]
    rfl
  obtain ⟨before, hbefore⟩ := read?_under hbody hplace
  have hpath : u.path = (before.foldl enter []).reverse ++ [[]] := by
    have hu := congrArg (Option.map Url.path) ((hbefore []).symm.trans hplace)
    have hnil : segments (pathPart []) = [[]] := rfl
    rw [Option.map_some, Option.map_some, hnil, resolve_append _ _ _ (List.cons_ne_nil _ _)] at hu
    exact (Option.some.inj hu).symm.trans (resolve_singleton _ [])
  have hne : segments (pathPart (tidyEnd tail.toList)) ≠ [] := by
    obtain ⟨xs, hxs⟩ := segments_eq_concat (pathPart (tidyEnd tail.toList))
    simp [hxs]
  rw [hread, hbefore, hpath, resolve_append _ _ _ hne]
  simp

end Herald.Url
