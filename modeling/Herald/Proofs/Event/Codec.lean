import Herald.Event.Codec
import Herald.Proofs.Json.Canonical
import Herald.Proofs.Json.Record

/-!
# Events come back, and only events

An event is read from every way to write it. Members may stand in any order, further ones may be
added, and the object may be a list of its two parts. What lacks a part, repeats one, names no kind
or holds no number where a 64-bit one belongs is no event.

* `Event.Presents`: a source presents an event.
* `Event.Fault`: what is wrong with a source that is no event.
* `Event.decode?_presented`: the payloads that present an event, and those with a fault.
-/

namespace Herald

open Source

/-! ## Kinds -/

namespace EventKind

theorem ofName?_eq_some {s : String} {k : EventKind} (h : ofName? s = some k) : k.name = s :=
  beq_iff_eq.1 (List.find?_some h :)

/-- A source names a kind: it is the name, or an object that maps the name to `null`. -/
inductive NamedBy (k : EventKind) : Source → Prop
  | text : NamedBy k (.text (some k.name))
  | unit : NamedBy k (.object [(some k.name, .null)])

end EventKind

namespace Event

theorem kind?_eq_some_iff {s : Source} {k : EventKind} : kind? s = some k ↔ k.NamedBy s := by
  constructor
  · intro h
    unfold kind? enumeration? at h
    split at h
    · obtain ⟨name, rfl, h⟩ := Option.bind_eq_some_iff.1 h
      exact EventKind.ofName?_eq_some h ▸ .text
    · obtain ⟨name, rfl, h⟩ := Option.bind_eq_some_iff.1 h
      exact EventKind.ofName?_eq_some h ▸ .unit
    · cases h
    · cases h
  · rintro (_ | _) <;> exact k.ofName?_name

/-! ## Presentations -/

variable {e : Event} {s kind params : Source} {k : EventKind} {spelling : Spelling}

/-- Members present the parameters of an event. -/
abbrev HasParams (e : Event) (members : List (Option String × Source)) : Prop :=
  HasMembers (e.params.map fun m => (m.1, m.2.toSource)) members

/-- The two parts of an event as members of an object, or one after the other in a list. -/
inductive Shows (e : Event) : Source → Prop
  | object {members params : List (Option String × Source)} : HasParams e params →
    HasMembers [("type", .text (some e.kind.name)), ("params", .object params)] members →
    Shows e (.object members)
  | list {params : List (Option String × Source)} : HasParams e params →
    Shows e (.list [.text (some e.kind.name), .object params])

/-- A source presents an event. All that is in it besides is plain, and nothing is nested too
deeply. -/
structure Presents (e : Event) (s : Source) : Prop where
  shows : Shows e s
  plain : s.isPlain = true
  shallow : s.depth ≤ maxDepth

theorem paramNames_kind (e : Event) : paramNames e.kind = e.params.map (·.1) := by
  cases e <;> rfl

theorem nodup_paramNames (k : EventKind) : (paramNames k).Nodup := by
  cases k <;> decide

/-- Parameters are read in either spelling. -/
theorem ofParams?_of_hasParams {members : List (Option String × Source)} (h : HasParams e members) :
    ofParams? spelling e.kind (.object members) = some e := by
  have hf := objectFields?_of_hasMembers h
    (by simpa [Function.comp_def, ← paramNames_kind] using nodup_paramNames e.kind)
  have hv (v : Visibility) : enumeration? spelling Visibility.ofName? (Json.text v.name).toSource =
      some v := v.ofName?_name
  have ht (s : String) : text? (Json.text s).toSource = some s := rfl
  rw [List.map_map, List.map_map] at hf
  cases e <;>
    simp only [params, List.map_cons, List.map_nil, Function.comp_apply] at hf <;>
    simp [ofParams?, kind, paramNames, hf, id?_ofId, hv, ht, list?_toSource id?_ofId]

theorem depth_le_of_mem {members : List (Option String × Source)} {m : Option String × Source}
    (h : m ∈ members) : m.2.depth ≤ depthOfMembers members := by
  induction members with
  | nil => cases h
  | cons m' members ih =>
    rcases List.mem_cons.1 h with rfl | h
    · exact Nat.le_max_left ..
    · exact Nat.le_trans (ih h) (Nat.le_max_right ..)

/-- An event is read from every presentation of it. The parameters may come first: then they are
kept, which they can be. -/
theorem ofSource?_of_presents (h : Presents e s) : ofSource? s = some e := by
  obtain ⟨hs, hp, hd⟩ := h
  have hk : kind? (.text (some e.kind.name)) = some e.kind := kind?_eq_some_iff.2 .text
  cases hs with
  | list h => simp [ofSource?, hk, ofParams?_of_hasParams h]
  | @object members params h hm =>
    have hn : ["type", "params"].Nodup := by decide
    obtain ⟨names, hnames⟩ := hm.exists_names
    have ht := hm.member? hn (List.mem_cons_self ..)
    have hps := hm.member? hn (List.mem_cons_of_mem _ (List.mem_cons_self ..))
    have hmem : (some "params", .object params) ∈ members := mem_of_member? hps
    have hkeep : keepable (.object params) = true := by
      have hd' := Nat.le_trans (Nat.succ_le_succ (depth_le_of_mem hmem)) hd
      have hp' := (allMembersPlain_iff.1 hp _ hmem).2
      simp [keepable, isSome_json? _ hp', hd']
    simp [ofSource?, hnames, ht, hps, hk, hkeep, ofParams?_of_hasParams h]

theorem allPlain_ofIds (accounts : List UserId) :
    allPlain (Json.sources (accounts.map Json.ofId)) = true := by
  rw [sources_eq_map, List.map_map, allPlain_iff]
  intro v hv
  obtain ⟨n, -, rfl⟩ := List.mem_map.1 hv
  exact isPlain_ofId n

/-- The written form of an event presents it. -/
theorem presents_toJson (e : Event) : Presents e e.toJson.toSource := by
  refine ⟨.object (hasMembers_memberSources e.params)
    (hasMembers_memberSources [("type", .text e.kind.name), ("params", .object e.params)]), ?_, ?_⟩
  · cases e <;> simp [toJson, Event.params, Json.toSource, Json.memberSources, isPlain,
      allMembersPlain, allPlain_ofIds]
  · rw [Json.depth_toSource]
    cases e <;> simp [toJson, Event.params, Json.depth, Json.depthOfMembers, maxDepth,
      Json.depthOfAll_map Json.depth_ofId]

/-- The text of an event says its written form. -/
theorem written_encode (e : Event) : e.toJson.toSource.Written e.encode := by
  apply written_compact
  cases e <;> simp [toJson, Event.params, Json.isPlain, Json.allMembersPlain,
    Json.allPlain_map Json.isPlain_ofId]

end Event

/-! ## Faults -/

/-- The number that a numeral stands for, its fraction and exponent left aside. -/
def Numeral.signed (n : Numeral) : Int :=
  if n.negative then -(Decimal.value n.whole : Int) else Decimal.value n.whole

/-- A numeral is a 64-bit signed integer, without fraction and exponent. -/
structure Numeral.IsId (n : Numeral) : Prop where
  fraction : n.fraction = []
  exponent : n.exponent = none
  least : -(twoPow 63 : Int) ≤ n.signed
  greatest : n.signed < twoPow 63

namespace Source

/-- A source is a 64-bit signed integer. -/
def IsId (s : Source) : Prop := ∃ n : Numeral, s = .number n ∧ n.IsId

theorem isId_of_id? {s : Source} {i : Int64} (h : id? s = some i) : s.IsId := by
  obtain ⟨v, hv, h⟩ := Option.bind_eq_some_iff.1 h
  split at h
  · next hr =>
    cases s with
    | number n =>
      simp only [integer?, Numeral.integer?] at hv
      split at hv
      · next hf he =>
        have hs : n.signed = v := by
          unfold Numeral.signed
          split at hv
          · split at hv <;> simp_all
          · simp_all
        exact ⟨n, rfl, hf, he, hs ▸ hr.1, hs ▸ hr.2⟩
      · cases hv
    | _ => cases hv
  · cases h

theorem isId_of_list? {s : Source} {l : List Int64} (h : list? id? s = some l) :
    ∃ items, s = .list items ∧ ∀ v ∈ items, v.IsId := by
  cases s with
  | list items =>
    refine ⟨items, rfl, fun v hv => ?_⟩
    have hall := forall₂_of_mapM_eq_some h
    clear h
    induction hall with
    | nil => cases hv
    | cons hi _ ih =>
      rcases List.mem_cons.1 hv with rfl | hv
      · exact isId_of_id? hi
      · exact ih hv
  | _ => cases h

end Source

namespace Event

/-- The parameters of a kind that are users. -/
def idNames : EventKind → List String
  | .newFollower => ["follower", "followee"]
  | .roomCreation => ["creator"]
  | .roomJoin => ["creator"]
  | .roomInvite => ["from", "target"]
  | .welcomeRoom => ["user"]
  | .followRecommendations => ["user"]

/-- The two parts of a source; of a member that is given twice there are two. -/
inductive HasParts : Source → Source → Source → Prop
  | object {members : List (Option String × Source)} {kind params : Source} :
    (some "type", kind) ∈ members → (some "params", params) ∈ members →
    HasParts (.object members) kind params
  | list {kind params : Source} : HasParts (.list [kind, params]) kind params

/-- What is wrong with a source that is no event. -/
inductive Fault : Source → Prop
  /-- A part is missing or given twice. -/
  | part {name : String} {members : List (Option String × Source)} : name ∈ ["type", "params"] →
    members.countP (·.1 == some name) ≠ 1 → Fault (.object members)
  /-- A part is missing from a list, or there is something behind the two. -/
  | length {items : List Source} : items.length ≠ 2 → Fault (.list items)
  | kind {s kind params : Source} : HasParts s kind params → (∀ k : EventKind, ¬ k.NamedBy kind) →
    Fault s
  /-- A parameter of the kind is missing or given twice. -/
  | param {s kind : Source} {members : List (Option String × Source)} {k : EventKind}
    {name : String} : HasParts s kind (.object members) → k.NamedBy kind → name ∈ paramNames k →
    members.countP (·.1 == some name) ≠ 1 → Fault s
  /-- A user is no 64-bit signed integer. -/
  | user {s kind v : Source} {members : List (Option String × Source)} {k : EventKind}
    {name : String} : HasParts s kind (.object members) → k.NamedBy kind → name ∈ idNames k →
    (some name, v) ∈ members → ¬ v.IsId → Fault s
  /-- A recommended user is no 64-bit signed integer. -/
  | account {s kind v : Source} {members : List (Option String × Source)} {items : List Source} :
    HasParts s kind (.object members) → EventKind.followRecommendations.NamedBy kind →
    (some "recommendations", .list items) ∈ members → v ∈ items → ¬ v.IsId → Fault s

theorem namedBy_unique {k k' : EventKind} (h : k.NamedBy s) (h' : k'.NamedBy s) : k = k' :=
  Option.some_inj.1 ((kind?_eq_some_iff.2 h).symm.trans (kind?_eq_some_iff.2 h'))

variable {tag body : Source}

/-- What parameters that are read hold. -/
theorem ofParams?_eq_some (h : ofParams? spelling k body = some e) :
    ∃ members, body = .object members ∧
      (∀ name ∈ paramNames k, ∃ v, member? members name = some (some v)) ∧
      (∀ name ∈ idNames k, ∃ v, member? members name = some (some v) ∧ v.IsId) ∧
      (k = .followRecommendations → ∃ items,
        member? members "recommendations" = some (some (.list items)) ∧ ∀ v ∈ items, v.IsId) := by
  obtain ⟨fields, hfs, he⟩ := Option.bind_eq_some_iff.1 h
  obtain ⟨members, rfl, hm⟩ := objectFields?_eq_some hfs
  refine ⟨members, rfl, ?_⟩
  split at he
  case h_7 => cases he
  all_goals
    simp only [bind, Option.bind_eq_some_iff] at he
    simp only [paramNames, List.forall₂_cons] at hm
  · obtain ⟨_, ha, _, hb, -⟩ := he
    simp [paramNames, idNames, hm, isId_of_id? ha, isId_of_id? hb]
  · obtain ⟨_, -, _, hb, -⟩ := he
    simp [paramNames, idNames, hm, isId_of_id? hb]
  · obtain ⟨_, -, _, hb, -⟩ := he
    simp [paramNames, idNames, hm, isId_of_id? hb]
  · obtain ⟨_, -, _, hb, _, hc, -⟩ := he
    simp [paramNames, idNames, hm, isId_of_id? hb, isId_of_id? hc]
  · obtain ⟨_, ha, -⟩ := he
    simp [paramNames, idNames, hm, isId_of_id? ha]
  · obtain ⟨_, ha, _, hb, -⟩ := he
    obtain ⟨items, rfl, hitems⟩ := isId_of_list? hb
    simpa [paramNames, idNames, hm, isId_of_id? ha] using hitems

/-- Of a source that is read the parts are there once, and the event is that of its parts. -/
theorem ofSource?_eq_some (h : ofSource? s = some e) :
    ∃ tag body k spelling, ((∃ members, s = .object members ∧
          member? members "type" = some (some tag) ∧
          member? members "params" = some (some body)) ∨ s = .list [tag, body]) ∧
      kind? tag = some k ∧ ofParams? spelling k body = some e := by
  unfold ofSource? at h
  split at h
  · next tag body =>
    obtain ⟨k, hk, h⟩ := Option.bind_eq_some_iff.1 h
    exact ⟨tag, body, k, .strict, .inr rfl, hk, h⟩
  · next members =>
    obtain ⟨names, -, h⟩ := Option.bind_eq_some_iff.1 h
    obtain ⟨_ | tag, ht, h⟩ := Option.bind_eq_some_iff.1 h <;>
      obtain ⟨_ | body, hp, h⟩ := Option.bind_eq_some_iff.1 h <;> try cases h
    refine ⟨tag, body, ?_⟩
    dsimp only at h
    split at h
    · obtain ⟨k, hk, h⟩ := Option.bind_eq_some_iff.1 h
      exact ⟨k, .strict, .inl ⟨members, rfl, ht, hp⟩, hk, h⟩
    · split at h
      · obtain ⟨k, hk, h⟩ := Option.bind_eq_some_iff.1 h
        exact ⟨k, .loose, .inl ⟨members, rfl, ht, hp⟩, hk, h⟩
      · cases h
  · cases h

theorem HasParts.eq_of_parts {s tag body tag' body' : Source} (h : HasParts s tag body)
    (hs : (∃ members, s = .object members ∧ member? members "type" = some (some tag') ∧
      member? members "params" = some (some body')) ∨ s = .list [tag', body']) :
    tag = tag' ∧ body = body' := by
  cases h with
  | object ht hb =>
    rcases hs with ⟨members, hm, ht', hb'⟩ | hs
    · cases hm
      exact ⟨eq_of_member? ht' ht, eq_of_member? hb' hb⟩
    · cases hs
  | list =>
    rcases hs with ⟨members, hm, -⟩ | hs
    · cases hm
    · cases hs
      exact ⟨rfl, rfl⟩

/-- No event is read from a source with a fault. -/
theorem ofSource?_of_fault (h : Fault s) : ofSource? s = none := by
  refine Option.eq_none_iff_forall_ne_some.2 fun e he => ?_
  obtain ⟨tag', body', k', spelling, hs, hk, he⟩ := ofSource?_eq_some he
  obtain ⟨members', rfl, hparams, hids, haccounts⟩ := ofParams?_eq_some he
  have hk := kind?_eq_some_iff.1 hk
  cases h with
  | part hn hc =>
    rcases hs with ⟨members, hm, ht, hb⟩ | hs
    · cases hm
      rcases List.mem_cons.1 hn with rfl | hn
      · exact hc (countP_of_member? ht)
      · cases List.mem_singleton.1 hn
        exact hc (countP_of_member? hb)
    · cases hs
  | length hc =>
    rcases hs with ⟨members, hm, -⟩ | hs
    · cases hm
    · cases hs
      exact hc rfl
  | kind hp hn =>
    obtain ⟨rfl, -⟩ := hp.eq_of_parts hs
    exact hn k' hk
  | param hp hn hm hc =>
    obtain ⟨rfl, hb⟩ := hp.eq_of_parts hs
    cases hb
    obtain rfl := namedBy_unique hn hk
    obtain ⟨v, hv⟩ := hparams _ hm
    exact hc (countP_of_member? hv)
  | user hp hn hm hv hid =>
    obtain ⟨rfl, hb⟩ := hp.eq_of_parts hs
    cases hb
    obtain rfl := namedBy_unique hn hk
    obtain ⟨v', hv', hid'⟩ := hids _ hm
    exact hid (eq_of_member? hv' hv ▸ hid')
  | account hp hn hl hv hid =>
    obtain ⟨rfl, hb⟩ := hp.eq_of_parts hs
    cases hb
    obtain rfl := namedBy_unique hn hk
    obtain ⟨items', hv', hid'⟩ := haccounts rfl
    cases eq_of_member? hv' hl
    exact hid (hid' _ hv)

/-- The payloads that say an event: its own text and every other text that presents it. A payload
with a fault says none. -/
theorem decode?_presented :
    (∀ e : Event, decode? (Utf8.encode e.encode) = some e) ∧
    (∀ (e : Event) (s : Source) (text : String), Presents e s → s.Written text →
      decode? (Utf8.encode text) = some e) ∧
    (∀ (s : Source) (text : String), Fault s → s.Written text →
      decode? (Utf8.encode text) = none) := by
  have hp (e : Event) (s : Source) (text : String) (h : Presents e s) (hw : s.Written text) :
      decode? (Utf8.encode text) = some e := by
    rw [decode?, ofOctets?_written hw, Option.bind_some, ofSource?_of_presents h]
  refine ⟨fun e => hp e _ _ (presents_toJson e) (written_encode e), hp, fun s text h hw => ?_⟩
  rw [decode?, ofOctets?_written hw, Option.bind_some, ofSource?_of_fault h]

/-- Parameters first, with white space, escapes and a further member. -/
def welcomeText : String :=
  "\x7b \"params\":\x7b\"room\":\"\\uD83d\\ude00\",\"user\":7,\"x\":-0\x7d,\"\\u0074ype\":\"welcome_room\"\x7d\n"

/-- A user beyond 64 bits. -/
def beyondText : String :=
  "\x7b\"type\":\"new_follower\",\"params\":\x7b\"follower\":9223372036854775808,\"followee\":1\x7d\x7d"

theorem decode?_presented_welcome :
    decode? (Utf8.encode welcomeText) = some (.welcomeRoom 7 "😀") ∧
      decode? (Utf8.encode beyondText) = none := by
  let room : Source := .text (some "😀")
  let user : Source := .number ⟨false, [7], [], none⟩
  let further : Source := .number ⟨true, [0], [], none⟩
  let s : Source := .object [(some "params", .object [(some "room", room), (some "user", user),
    (some "x", further)]), (some "type", .text (some "welcome_room"))]
  have hs : Presents (.welcomeRoom 7 "😀") s := by
    have hp : HasParams (.welcomeRoom 7 "😀")
        [(some "room", room), (some "user", user), (some "x", further)] :=
      ⟨[("x", further)], by simp [Event.params], .swap ..⟩
    exact ⟨.object hp ⟨[], by simp, .swap ..⟩, by decide +kernel, by decide +kernel⟩
  have hw : s.Written welcomeText := by
    have ht : UnitWritten 0x74 ['\\', 'u', '0', '0', '7', '4'] :=
      .mk (a := 0) (b := 0) (c := 7) (d := 4) (by decide) (by decide) (by decide) (by decide)
    have hhigh : UnitWritten (0xD800 + 0x3d) ['\\', 'u', 'D', '8', '3', 'd'] :=
      .mk (a := 0xd) (b := 8) (c := 3) (d := 0xd) (by decide) (by decide) (by decide) (by decide)
    have hlow : UnitWritten (0xDC00 + 0x200) ['\\', 'u', 'd', 'e', '0', '0'] :=
      .mk (a := 0xd) (b := 0xe) (c := 0) (d := 0) (by decide) (by decide) (by decide) (by decide)
    have hroom : CharWritten '😀'
        (['\\', 'u', 'D', '8', '3', 'd'] ++ ['\\', 'u', 'd', 'e', '0', '0']) :=
      .pair hhigh hlow (by decide) (by decide) (by decide)
    have huser : Numeral.Written ⟨false, [7], [], none⟩ ['7'] :=
      .mk (.inr ⟨7, [], rfl, by decide⟩) (by decide) (by decide) .absent
    have hzero : Numeral.Written ⟨true, [0], [], none⟩ ['-', '0'] :=
      .mk (.inl rfl) (by decide) (by decide) .absent
    -- From the last token to the first.
    have h := (TokensWritten.nil (s := ['\n']) (by simp [Blank])).mark '}'
    have h := ((h.text "welcome_room").mark ':').next
      (.text (s := "type") (.cons (.unit ht) (charsWritten_escape ['y', 'p', 'e'])))
    have h := (((h.mark ',').mark '}').next (.number hzero)).mark ':'
    have h := (((h.text "x").mark ',').next (.number huser)).mark ':'
    have h := ((h.text "user").mark ',').next (.text (s := "😀") (.cons hroom .nil))
    have h := (((h.mark ':').text "room").mark '{').mark ':'
    have h := TokensWritten.cons (s := [' ']) (by simp [Blank])
      (.text (charsWritten_escape "params".toList)) h
    exact h.mark '{'
  have hf : Fault (Json.object [("type", .text "new_follower"), ("params", .object
      [("follower", .integer 9223372036854775808), ("followee", .integer 1)])]).toSource := by
    refine .user (.object (List.mem_cons_self ..) (List.mem_cons_of_mem _ (List.mem_cons_self ..)))
      (.text (k := .newFollower)) (by decide) (List.mem_cons_self ..) ?_
    rintro ⟨n, h, -, -, -, hn⟩
    cases h
    exact absurd hn (by decide)
  exact ⟨decode?_presented.2.1 _ _ _ hs hw, decode?_presented.2.2 _ _ hf (written_compact rfl)⟩

end Event

end Herald
