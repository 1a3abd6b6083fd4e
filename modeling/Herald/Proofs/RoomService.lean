import Herald.Proofs.Http.Url
import Herald.RoomService

/-!
# Which rooms are asked for

The id of a room stands in the address as it is. So it is read as a part of the address: a slash in it
starts another segment, dots lead to the places above, what follows a question mark or a number sign is
no path at all, blanks at the end and line ends count for nothing, and what looks like an escape is one.

* `request?_eq`: the request for a room, whatever its id is.
* `request_exact`: the rooms that are asked for by their id are the plain ones, and two of them are asked
  for at different targets.
-/

namespace Herald.RoomService

open Url

/-- The id of a room means itself in an address. -/
structure IsPlain (room : RoomId) : Prop where
  characters : ∀ c ∈ room.toList, isSlash c = false ∧ c ≠ '?' ∧ c ≠ '#' ∧ isBreak c = false
  ending : ∀ h : room.toList ≠ [], isBlank (room.toList.getLast h) = false
  dots : room ≠ "." ∧ room ≠ ".."
  escapes : ¬ HoldsEscape room.toList

/-- The path of the rooms under the place that a base address is. -/
def roomsPath (place : Url) : List (List Char) :=
  place.path.dropLast ++ ["api".toList, "v1".toList, "rooms".toList]

/-- A request that asks for the room and nothing else: at the same server, in one segment below the place
of the rooms, whose octets are those of the id. -/
structure AsksFor (place : Url) (room : RoomId) (r : Http.Request) : Prop where
  method : r.method = .get
  server : r.url.isSecure = place.isSecure ∧ r.url.user = place.user ∧ r.url.host = place.host ∧
    r.url.port = place.port
  path : ∃ segment, r.url.path = roomsPath place ++ [segment] ∧ unescape segment = Utf8.encode room
  query : r.url.query = none

/-! ## Addresses -/

variable {base : String} {place : Url} {room : RoomId}

theorem trimSlashes_subset (s : String) : (Http.trimSlashes s).toList ⊆ s.toList := fun c hc => by
  have hmem : c ∈ s.toList.reverse.dropWhile (· = '/') := by simpa [Http.trimSlashes] using hc
  exact List.mem_reverse.1 ((List.dropWhile_suffix _).subset hmem)

/-- The place of the rooms. -/
theorem parse?_rooms (hbare : IsBare base.toList) (hplace : parse? (base ++ "/") = some place) :
    parse? (base ++ "/api/v1/rooms" ++ "/") = some { place with path := roomsPath place ++ [[]], query := none } := by
  have htext : base ++ "/api/v1/rooms" ++ "/" = base ++ "/" ++ "api/v1/rooms/" := by
    rw [String.append_assoc, String.append_assoc]
    exact congrArg (base ++ ·) (by decide)
  have htidy : tidyEnd "api/v1/rooms/".toList = "api/v1/rooms/".toList := by decide
  have hquery : queryPart "api/v1/rooms/".toList = none := by decide
  have hsegments : segments (pathPart "api/v1/rooms/".toList) =
      ["api".toList, "v1".toList, "rooms".toList, []] := by decide
  have hend (above : List (List Char)) : resolve above ["api".toList, "v1".toList, "rooms".toList, []] =
      above.reverse ++ ["api".toList, "v1".toList, "rooms".toList, []] := by
    have hresolve : resolve above ["api".toList, "v1".toList, "rooms".toList, []] =
      ([] :: "rooms".toList :: "v1".toList :: "api".toList :: above).reverse := rfl
    rw [hresolve]
    simp
  rw [htext, parse?_under hbare hplace, htidy, hquery, hsegments, hend, List.reverse_reverse, roomsPath,
    List.append_assoc]
  rfl

/-- The request for a room: its id is read as what stands under the place of the rooms. -/
theorem request?_eq (hbare : IsBare base.toList)
    (hplace : parse? (Http.trimSlashes base ++ "/") = some place) (room : RoomId) :
    request? base room = some { method := .get, url := { place with
      path := resolve (roomsPath place).reverse (segments (pathPart (tidyEnd room.toList)))
      query := queryPart (tidyEnd room.toList) } } := by
  have htrimmed : IsBare (Http.trimSlashes base).toList := hbare.mono (trimSlashes_subset base)
  have hunder : IsBare (Http.trimSlashes base ++ "/api/v1/rooms").toList := by
    rw [String.toList_append]
    exact htrimmed.append ⟨by decide, by decide⟩
  have hrooms := parse?_rooms htrimmed hplace
  have haddress : address base room = Http.trimSlashes base ++ "/api/v1/rooms" ++ "/" ++ room := by
    have htext : "/api/v1/rooms/" = "/api/v1/rooms" ++ "/" := by decide
    show Http.trimSlashes base ++ "/api/v1/rooms/" ++ room = _
    rw [htext, ← String.append_assoc]
  rw [request?, haddress, parse?_under hunder hrooms]
  simp

/-! ## Plain ids -/

theorem IsPlain.tidyEnd (h : IsPlain room) : Url.tidyEnd room.toList = room.toList := by
  have hend : room.toList.rdropWhile isBlank = room.toList :=
    List.rdropWhile_eq_self_iff.2 fun hne => by simp [h.ending hne]
  rw [Url.tidyEnd, hend, List.filter_eq_self]
  intro c hc
  simp [(h.characters c hc).2.2.2]

theorem IsPlain.not_isDots (h : IsPlain room) : isDots room.toList = false := by
  by_contra hdots
  rcases isDots_cases (by simpa using hdots) with hone | htwo | hescape
  · exact h.dots.1 (String.toList_inj.1 hone)
  · exact h.dots.2 (String.toList_inj.1 htwo)
  · exact h.escapes hescape

/-- A plain id is read as one segment. -/
theorem IsPlain.request?_eq (hbare : IsBare base.toList)
    (hplace : parse? (Http.trimSlashes base ++ "/") = some place) (h : IsPlain room) :
    request? base room = some { method := .get, url := { place with
      path := roomsPath place ++ [escape unfitPath room.toList], query := none } } := by
  have hhash : room.toList.takeWhile (· != '#') = room.toList :=
    List.takeWhile_eq_self_iff.2 fun c hc => bne_iff_ne.2 (h.characters c hc).2.2.1
  have hask : room.toList.takeWhile (· != '?') = room.toList :=
    List.takeWhile_eq_self_iff.2 fun c hc => bne_iff_ne.2 (h.characters c hc).2.1
  have hnone : room.toList.dropWhile (· != '?') = [] :=
    List.dropWhile_eq_nil_iff.2 fun c hc => bne_iff_ne.2 (h.characters c hc).2.1
  have hpath : pathPart room.toList = room.toList := by rw [pathPart, hhash, hask]
  have hqueryPart : queryPart room.toList = none := by rw [queryPart, hhash, hnone]
  have hdouble : isDoubleDot room.toList = false := (Bool.or_eq_false_iff.1 h.not_isDots).1
  rw [RoomService.request?_eq hbare hplace, h.tidyEnd, hpath, hqueryPart,
    segments_eq_singleton fun c hc => (h.characters c hc).1, resolve_singleton, h.not_isDots, hdouble]
  simp

/-! ## What is left of an id -/

section

variable {cs last : List Char}

theorem lastSegment_sublist (cs : List Char) : List.Sublist (lastSegment cs) cs := (List.rtakeWhile_suffix _ _).sublist

theorem pathPart_sublist (cs : List Char) : List.Sublist (pathPart cs) cs :=
  (List.takeWhile_sublist _).trans (List.takeWhile_sublist _)

theorem rdropWhile_sublist (cs : List Char) : List.Sublist (cs.rdropWhile isBlank) cs :=
  (List.rdropWhile_prefix _ _).sublist

theorem tidyEnd_sublist (cs : List Char) : List.Sublist (Url.tidyEnd cs) (cs.rdropWhile isBlank) :=
  List.filter_sublist

/-- If a text is its own last segment, nothing of it is cut off. -/
theorem eq_of_lastSegment_eq (h : lastSegment (pathPart (Url.tidyEnd cs)) = cs) :
    cs.rdropWhile isBlank = cs ∧ Url.tidyEnd cs = cs ∧ pathPart cs = cs ∧ lastSegment cs = cs := by
  have hpath : List.Sublist cs (pathPart (Url.tidyEnd cs)) := by
    have hsub := lastSegment_sublist (pathPart (Url.tidyEnd cs))
    rwa [h] at hsub
  have htidy : List.Sublist cs (Url.tidyEnd cs) := hpath.trans (pathPart_sublist _)
  have hend : List.Sublist cs (cs.rdropWhile isBlank) := htidy.trans (tidyEnd_sublist cs)
  have htidyEq : Url.tidyEnd cs = cs := ((tidyEnd_sublist cs).trans (rdropWhile_sublist cs)).antisymm htidy
  rw [htidyEq] at h hpath
  have hpathEq : pathPart cs = cs := (pathPart_sublist cs).antisymm hpath
  rw [hpathEq] at h
  exact ⟨(rdropWhile_sublist cs).antisymm hend, htidyEq, hpathEq, h⟩

/-- What is left of a segment means no more octets than it has. -/
theorem length_unescape_left_le (last : List Char) :
    (unescape (if isDots last then [] else escape unfitPath last)).length ≤
      (last.flatMap Utf8.encodeChar).length := by
  split
  · exact Nat.zero_le _
  · rw [unescape_escape spares_unfitPath]
    exact length_unescape_le last

/-- Dots mean no octets, so they are not found again. -/
theorem not_isDots_of_unescape (h : unescape (if isDots last then [] else escape unfitPath last) =
    last.flatMap Utf8.encodeChar) : isDots last = false := by
  by_contra hdots
  rw [if_pos (by simpa using hdots)] at h
  have hnil : last = [] := by
    refine List.eq_nil_iff_forall_not_mem.2 fun c hc => ?_
    have hpos := Utf8.length_encodeChar_pos c
    have hempty : Utf8.encodeChar c = [] := List.flatMap_eq_nil_iff.1 h.symm c hc
    simp [hempty] at hpos
  rw [hnil] at hdots
  exact hdots rfl

end

/-- An id that is found again in the last segment of what is asked for is a plain one: nothing of it is
cut off, and nothing of it is read as anything else. -/
theorem isPlain_of_unescape {last : List Char} (hlast : lastSegment (pathPart (Url.tidyEnd room.toList)) = last)
    (hmeans : unescape (if isDots last then [] else escape unfitPath last) = Utf8.encode room) : IsPlain room := by
  have hwhole : last = room.toList := by
    refine eq_of_sublist_of_length_le ?_ ?_
    · rw [← hlast]
      exact (lastSegment_sublist _).trans ((pathPart_sublist _).trans
        ((tidyEnd_sublist _).trans (rdropWhile_sublist _)))
    · have hle := length_unescape_left_le last
      rwa [hmeans] at hle
  subst hwhole
  obtain ⟨hend, htidy, hpath, hsegment⟩ := eq_of_lastSegment_eq hlast
  have hdots := not_isDots_of_unescape hmeans
  rw [if_neg (by simp [hdots]), unescape_escape spares_unfitPath] at hmeans
  refine ⟨fun c hc => ⟨?_, ?_, ?_, ?_⟩, fun hne => ?_, ⟨?_, ?_⟩, (unescape_eq_iff _).1 hmeans⟩
  · exact isSlash_of_mem_lastSegment (hsegment.symm ▸ hc)
  · exact (ne_of_mem_pathPart (hpath.symm ▸ hc)).1
  · exact (ne_of_mem_pathPart (hpath.symm ▸ hc)).2
  · rw [← htidy] at hc
    simpa using (List.mem_filter.1 hc).2
  · simpa using List.rdropWhile_eq_self_iff.1 hend hne
  · rintro rfl
    exact absurd hdots (by decide)
  · rintro rfl
    exact absurd hdots (by decide)

/-! ## Requests -/

/-- The rooms that are asked for by their id are those whose id is plain. Two of them are asked for at
different targets. -/
theorem request_exact (hquery : '?' ∉ base.toList) (hfragment : '#' ∉ base.toList)
    (hplace : parse? (Http.trimSlashes base ++ "/") = some place) :
    (∀ room, ∃ r, request? base room = some r ∧ (AsksFor place room r ↔ IsPlain room)) ∧
    ∀ room other r r', IsPlain room → IsPlain other → request? base room = some r →
      request? base other = some r' → r.url.target = r'.url.target → room = other := by
  have hbare : IsBare base.toList := ⟨hquery, hfragment⟩
  refine ⟨fun room => ⟨_, request?_eq hbare hplace room, fun h => ?_, fun h => ?_⟩,
    fun room other r r' hroom hother hr hr' htarget => ?_⟩
  · obtain ⟨segment, hpath, hmeans⟩ := h.path
    obtain ⟨before, hbefore⟩ := resolve_segments_eq_concat (roomsPath place).reverse
      (pathPart (Url.tidyEnd room.toList))
    have hlast := congrArg List.getLast? (hbefore.symm.trans hpath)
    rw [List.getLast?_concat, List.getLast?_concat] at hlast
    rw [← Option.some.inj hlast] at hmeans
    exact isPlain_of_unescape rfl hmeans
  · have heq := (request?_eq hbare hplace room).symm.trans (h.request?_eq hbare hplace)
    rw [Option.some.inj heq]
    refine ⟨rfl, ⟨rfl, rfl, rfl, rfl⟩, ⟨escape unfitPath room.toList, rfl, ?_⟩, rfl⟩
    rw [unescape_escape spares_unfitPath]
    exact (unescape_eq_iff _).2 h.escapes
  · rw [hroom.request?_eq hbare hplace] at hr
    rw [hother.request?_eq hbare hplace] at hr'
    cases hr
    cases hr'
    have hsegment : escape unfitPath room.toList = escape unfitPath other.toList := by
      simpa [target, pathText] using String.ofList_injective htarget
    have hmeans := congrArg unescape hsegment
    rw [unescape_escape spares_unfitPath, unescape_escape spares_unfitPath, (unescape_eq_iff _).2 hroom.escapes,
      (unescape_eq_iff _).2 hother.escapes] at hmeans
    exact Utf8.encode_injective hmeans

/-- The address of a server's root. -/
def root (host : String) : Url := { isSecure := false, user := "", host, port := 80, path := [[]], query := none }

theorem request_exact_bare_host :
    '?' ∉ "http://rooms".toList ∧ '#' ∉ "http://rooms".toList ∧
    parse? (Http.trimSlashes "http://rooms" ++ "/") = some (root "rooms") ∧
    (∀ room, ∃ r, request? "http://rooms" room = some r ∧ (AsksFor (root "rooms") room r ↔ IsPlain room)) ∧
    ∀ room other r r', IsPlain room → IsPlain other → request? "http://rooms" room = some r →
      request? "http://rooms" other = some r' → r.url.target = r'.url.target → room = other :=
  ⟨by decide, by decide, by decide +kernel,
    request_exact (by decide) (by decide) (by decide +kernel)⟩

/-- An id with dots and a slash reaches what is no room. -/
theorem not_asksFor_above : parse? "http://rooms/" = some (root "rooms") ∧
    ∃ r, request? "http://rooms" "../health" = some r ∧ r.url.target = "/api/v1/health" ∧
      ¬ AsksFor (root "rooms") "../health" r := by
  have hplace : parse? (Http.trimSlashes "http://rooms" ++ "/") = some (root "rooms") := by decide +kernel
  have hpath : resolve (roomsPath (root "rooms")).reverse (segments (pathPart (tidyEnd "../health".toList))) =
      ["api".toList, "v1".toList, "health".toList] := by decide +kernel
  have hquery : queryPart (tidyEnd "../health".toList) = none := by decide +kernel
  refine ⟨by decide +kernel, _, request?_eq ⟨by decide, by decide⟩ hplace "../health", ?_, fun h => ?_⟩
  · rw [hpath, hquery]
    decide +kernel
  · obtain ⟨segment, hsegment, -⟩ := h.path
    have hlength := congrArg List.length (hpath.symm.trans hsegment)
    simp [roomsPath, root] at hlength

end Herald.RoomService
