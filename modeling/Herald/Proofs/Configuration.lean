import Herald.Configuration
import Herald.Proofs.Text.Number
import Mathlib.Data.List.Forall2
import Mathlib.Data.List.Nodup

/-!
# Which pairs describe a configuration

Pairs are read one after the other into a draft, but what comes of them depends on nothing but which values
they give each field: at most one, which the field takes, and one at least if the field has no default.

* `Form.read_eq_ok`: which texts a form takes.
* `Configuration.Describes`: the configuration that pairs describe; `ofPairs_eq_ok` says that it is read.
* `Configuration.read_exact`: which pairs are accepted, what comes of them, and which changes of them make no
  difference.
-/

namespace Herald

variable {s : String} {source : PairSource} {pairs pairs' : List (String × String)} {name value : String}

/-! ## Values -/

namespace Form

open Number

/-- What a text says of the values of a form. The ids of users stand between commas, if there are any. -/
inductive Says : (k : Form) → String → k.Value → Prop
  | text (s : String) : Says .text s s
  | optionalText (s : String) : Says .optionalText s (some s)
  | short {s : String} {n : UInt16} : Unsigned s.toList n.toNat → Says .short s n
  | size {s : String} {n : UInt64} : Unsigned s.toList n.toNat → Says .size s n
  | signed {s : String} {n : Int64} : Signed s.toList n.toInt → Says .signed s n
  | nobody : Says .users "" ([] : List Int64)
  | users {s : String} {ids : List Int64} : s ≠ "" →
    List.Forall₂ (fun piece id => Signed piece id.toInt) (s.toList.splitOn ',') ids → Says .users s ids

theorem pieces_eq (s : String) : pieces s = (s.toList.splitOn ',').map String.ofList := by
  have hgo (piece cs : List Char) :
      pieces.go piece cs = (cs.splitOnPPrepend (· == ',') piece).map String.ofList := by
    fun_induction pieces.go piece cs with
    | case1 piece => rfl
    | case2 piece rest ih => simp [List.splitOnPPrepend, ih]
    | case3 piece c rest hc ih =>
      have hne : (c == ',') = false := beq_eq_false_iff_ne.2 hc
      simp [List.splitOnPPrepend, ih, hne]
  exact hgo [] s.toList

theorem map_eq_ok {ε ε' α β : Type} {e : Except ε α} {f : α → β} {g : ε → ε'} {b : β} :
    (e.map f).mapError g = .ok b ↔ ∃ a, e = .ok a ∧ f a = b := by
  cases e <;> simp [Except.map, Except.mapError]

theorem signed_ofInt {n : Int64} :
    (∃ i, Number.signed s = .ok i ∧ Int64.ofInt i = n) ↔ Signed s.toList n.toInt := by
  simp only [signed_eq_ok, twoPow_63]
  constructor
  · rintro ⟨i, ⟨h, hlow, hhigh⟩, rfl⟩
    rwa [Int64.toInt_ofInt_of_le (by omega) (by omega)]
  · intro h
    have hlow := n.le_toInt
    have hhigh := n.toInt_lt
    exact ⟨_, ⟨h, by omega, by omega⟩, Int64.ofInt_toInt n⟩

theorem readUsers_eq_ok {ps : List String} {ids : List Int64} :
    readUsers ps = .ok ids ↔ List.Forall₂ (fun p id => Signed p.toList id.toInt) ps ids := by
  simp only [← signed_ofInt]
  induction ps generalizing ids with
  | nil => simp [readUsers, eq_comm]
  | cons p ps ih =>
    simp only [readUsers, List.forall₂_cons_left_iff, ← ih]
    cases Number.signed p with
    | error problem => simp
    | ok i => cases readUsers ps <;> simp [Except.map, eq_comm]

/-- A number without a sign that is kept in a type which holds just what does not exceed a limit. -/
theorem unsigned_ofNat {α : Type} {most : Nat} {ofNat : Nat → α} {toNat : α → Nat} {a : α}
    (hto : ∀ m ≤ most, toNat (ofNat m) = m) (hof : ∀ a, ofNat (toNat a) = a) (hle : ∀ a, toNat a ≤ most) :
    (∃ m, Number.unsigned most s = .ok m ∧ ofNat m = a) ↔ Unsigned s.toList (toNat a) := by
  simp only [unsigned_eq_ok]
  constructor
  · rintro ⟨m, ⟨h, hm⟩, rfl⟩
    rwa [hto m hm]
  · exact fun h => ⟨toNat a, ⟨h, hle a⟩, hof a⟩

theorem unsigned_short {n : UInt16} :
    (∃ m, Number.unsigned (twoPow 16 - 1) s = .ok m ∧ UInt16.ofNat m = n) ↔
      Unsigned s.toList n.toNat :=
  unsigned_ofNat (fun _ hm => UInt16.toNat_ofNat_of_lt (Nat.lt_succ_of_le hm)) (fun _ => UInt16.ofNat_toNat)
    fun n => Nat.le_of_lt_succ n.toNat_lt

theorem unsigned_size {n : UInt64} :
    (∃ m, Number.unsigned (twoPow 64 - 1) s = .ok m ∧ UInt64.ofNat m = n) ↔
      Unsigned s.toList n.toNat :=
  unsigned_ofNat (fun _ hm => UInt64.toNat_ofNat_of_lt (Nat.lt_succ_of_le hm)) (fun _ => UInt64.ofNat_toNat)
    fun n => Nat.le_of_lt_succ n.toNat_lt

/-- A text is read as what it says. -/
theorem read_eq_ok {k : Form} {v : k.Value} : k.read s = .ok v ↔ k.Says s v := by
  cases k with
  | text => exact ⟨fun h => by cases h; exact .text s, fun h => by cases h; rfl⟩
  | optionalText => exact ⟨fun h => by cases h; exact .optionalText s, fun h => by cases h; rfl⟩
  | short =>
    refine map_eq_ok.trans (unsigned_short.trans ⟨.short, fun h => ?_⟩)
    cases h with
    | short h => exact h
  | size =>
    refine map_eq_ok.trans (unsigned_size.trans ⟨.size, fun h => ?_⟩)
    cases h with
    | size h => exact h
  | signed =>
    refine map_eq_ok.trans (signed_ofInt.trans ⟨.signed, fun h => ?_⟩)
    cases h with
    | signed h => exact h
  | users =>
    simp only [read, pieces_eq]
    split
    · next hs =>
      subst hs
      refine ⟨fun h => by cases h; exact .nobody, fun h => ?_⟩
      cases h with
      | nobody => rfl
      | users hne => exact absurd rfl hne
    · next hs =>
      rw [readUsers_eq_ok, List.forall₂_map_left_iff]
      simp only [String.toList_ofList]
      refine ⟨.users hs, fun h => ?_⟩
      cases h with
      | nobody => exact absurd rfl hs
      | users _ h => exact h

end Form

/-! ## Names -/

namespace Field

variable {f g : Field} {a b : String}

/-- A name in lower case. -/
def lower (name : String) : String := String.ofList (name.toList.map lowerChar)

theorem name_injective (h : f.name = g.name) : f = g := by
  have hn : (all.map Field.name).Nodup := by decide +kernel
  exact List.inj_on_of_nodup_map hn f.mem_all g.mem_all h

theorem ofName?_eq_some : ofName? name = some f ↔ lower name = f.name := by
  have hfind : ofName? name = all.find? (·.name == lower name) := rfl
  have hname {g : Field} (h : ofName? name = some g) : g.name = lower name := by
    rw [hfind] at h
    simpa using List.find?_some h
  refine ⟨fun h => (hname h).symm, fun h => ?_⟩
  have hsome : (ofName? name).isSome = true := by
    rw [hfind, List.find?_isSome]
    exact ⟨f, f.mem_all, beq_iff_eq.2 h.symm⟩
  obtain ⟨g, hg⟩ := Option.isSome_iff_exists.1 hsome
  rw [hg, name_injective ((hname hg).trans h)]

theorem ofName?_eq_none : ofName? name = none ↔ ∀ f : Field, lower name ≠ f.name := by
  rw [Option.eq_none_iff_forall_ne_some]
  exact forall_congr' fun f => not_congr ofName?_eq_some

/-! ### Case -/

/-- Names that differ in the case of ASCII letters only. -/
def SameLetters (a b : String) : Prop := a.toList.map Char.toLower = b.toList.map Char.toLower

/-- A character is its own lower case, or its lower case is a small ASCII letter. -/
theorem toLower_cases (c : Char) :
    c.toLower = c ∨ 97 ≤ c.toLower.toNat ∧ c.toLower.toNat ≤ 122 := by
  unfold Char.toLower
  split
  · next h =>
    have hlow : 65 ≤ c.val.toNat := UInt32.le_iff_toNat_le.1 h.1
    have hhigh : c.val.toNat ≤ 90 := UInt32.le_iff_toNat_le.1 h.2
    have hval : (c.val + ('a'.val - 'A'.val)).toNat = c.val.toNat + 32 := by
      rw [UInt32.toNat_add]
      exact Nat.mod_eq_of_lt (Nat.lt_of_le_of_lt (Nat.add_le_add_right hhigh 32) (by decide))
    right
    show 97 ≤ (c.val + ('a'.val - 'A'.val)).toNat ∧ (c.val + ('a'.val - 'A'.val)).toNat ≤ 122
    omega
  · exact .inl rfl

theorem toLower_of_lt {c : Char} (h : 90 < c.toNat) : c.toLower = c := by
  unfold Char.toLower
  refine dif_neg fun hc => ?_
  have hle : c.toNat ≤ 90 := UInt32.le_iff_toNat_le.1 hc.2
  omega

/-- Names are compared without regard to the case of letters. -/
theorem lowerChar_toLower (c : Char) : lowerChar c.toLower = lowerChar c := by
  rcases toLower_cases c with h | ⟨hlow, hhigh⟩
  · rw [h]
  · have hc : c ≠ '\u212a' := by
      rintro rfl
      exact absurd hhigh (by decide)
    have hl : c.toLower ≠ '\u212a' := by
      intro h
      rw [h] at hhigh
      exact absurd hhigh (by decide)
    rw [lowerChar, lowerChar, if_neg hc, if_neg hl, toLower_of_lt (by omega)]

theorem SameLetters.lower_eq (h : SameLetters a b) : lower a = lower b := by
  have hmap (s : String) : s.toList.map lowerChar = (s.toList.map Char.toLower).map lowerChar := by
    rw [List.map_map]
    exact List.map_congr_left fun c _ => (lowerChar_toLower c).symm
  rw [lower, lower, hmap, hmap, show a.toList.map Char.toLower = _ from h]

end Field

/-! ## Drafts -/

namespace Configuration

variable {d d' : Draft} {f g : Field} {c : Configuration} {o o' : Option f.Value} {l : List String}

/-- The values that pairs give a field, in order. -/
def given (pairs : List (String × String)) (f : Field) : List String :=
  (pairs.filter fun p => Field.lower p.1 = f.name).map (·.2)

theorem given_cons_self (h : Field.lower name = f.name) :
    given ((name, value) :: pairs) f = value :: given pairs f := by
  simp [given, h]

theorem given_cons_of_ne (h : Field.lower name ≠ f.name) :
    given ((name, value) :: pairs) f = given pairs f := by
  simp [given, h]

/-- What becomes of a field of a draft by the values that are given to it. -/
inductive Takes (f : Field) : List String → Option f.Value → Option f.Value → Prop
  | keep {o : Option f.Value} : Takes f [] o o
  | take {s : String} {v : f.Value} : f.form.Says s v → Takes f [s] none (some v)

theorem takes_nil : Takes f [] o o' ↔ o = o' := by
  refine ⟨fun h => ?_, fun h => h ▸ .keep⟩
  cases h
  rfl

theorem takes_cons :
    Takes f (s :: l) o o' ↔ o = none ∧ ∃ v, f.form.Says s v ∧ Takes f l (some v) o' := by
  constructor
  · intro h
    cases h with
    | take hs => exact ⟨rfl, _, hs, .keep⟩
  · rintro ⟨rfl, v, hs, ht⟩
    cases ht with
    | keep => exact .take hs

theorem set_self (d : Draft) (f : Field) (v : f.Value) : d.set f v f = some v := dif_pos rfl

theorem set_of_ne (d : Draft) {f g : Field} (v : f.Value) (h : f ≠ g) : d.set f v g = d g := dif_neg h

/-- A pair with a known name is read if its field has no value yet and it says one. -/
theorem readPair_eq_ok (h : Field.lower name = f.name) :
    readPair d name value = .ok d' ↔ d f = none ∧ ∃ v, f.form.Says value v ∧ d' = d.set f v := by
  have hf : Field.ofName? name = some f := Field.ofName?_eq_some.2 h
  simp only [readPair, hf, ← Form.read_eq_ok]
  cases d f with
  | some v => simp
  | none =>
    simp only [Option.isSome_none, Bool.false_eq_true, if_false, true_and]
    cases f.form.read value with
    | error e => simp
    | ok v => simp [eq_comm]

/-- Pairs are read just if each field takes the values that they give it. -/
theorem readPairs_eq_ok : readPairs d pairs = .ok d' ↔ ∀ f, Takes f (given pairs f) (d f) (d' f) := by
  induction pairs generalizing d with
  | nil => simp [readPairs, given, takes_nil, funext_iff]
  | cons p pairs ih =>
    obtain ⟨name, value⟩ := p
    have hbind : readPairs d ((name, value) :: pairs) = .ok d' ↔
        ∃ d₁, readPair d name value = .ok d₁ ∧ readPairs d₁ pairs = .ok d' := by
      rw [readPairs]
      cases readPair d name value <;> simp [bind, Except.bind]
    by_cases hn : ∃ f : Field, Field.lower name = f.name
    · obtain ⟨f, hf⟩ := hn
      have hother {g : Field} (hg : f ≠ g) : given ((name, value) :: pairs) g = given pairs g :=
        given_cons_of_ne fun e => hg (Field.name_injective (hf.symm.trans e))
      simp only [hbind, readPair_eq_ok hf, ih]
      constructor
      · rintro ⟨_, ⟨hnone, v, hs, rfl⟩, h⟩ g
        by_cases hg : f = g
        · subst hg
          rw [given_cons_self hf]
          exact takes_cons.2 ⟨hnone, v, hs, set_self d f v ▸ h f⟩
        · rw [hother hg, ← set_of_ne d v hg]
          exact h g
      · intro h
        obtain ⟨hnone, v, hs, ht⟩ := takes_cons.1 (given_cons_self hf ▸ h f)
        refine ⟨_, ⟨hnone, v, hs, rfl⟩, fun g => ?_⟩
        by_cases hg : f = g
        · subst hg
          rw [set_self]
          exact ht
        · rw [set_of_ne d v hg, ← hother hg]
          exact h g
    · have hnone : readPair d name value = .ok d := by
        simp only [readPair, Field.ofName?_eq_none.2 (not_exists.1 hn)]
      have hsame (f : Field) : given ((name, value) :: pairs) f = given pairs f :=
        given_cons_of_ne (not_exists.1 hn f)
      simp only [hbind, hnone, Except.ok.injEq, exists_eq_left', ih, hsame]

/-- A draft is complete if every field has a value in it, or a default. -/
theorem complete_eq_ok : d.complete = .ok c ↔ ∀ f, d.value? f = some (c.get f) := by
  unfold Draft.complete
  split
  · next f h =>
    have hf : d.value? f = none := by simpa using List.find?_some h
    refine ⟨nofun, fun hall => ?_⟩
    rw [hall f] at hf
    cases hf
  · simp only [Except.ok.injEq]
    constructor
    · rintro rfl f
      exact (Option.some_get _).symm
    · intro hall
      obtain ⟨get⟩ := c
      simp only [Configuration.mk.injEq]
      funext f
      exact Option.some.inj ((Option.some_get _).trans (hall f))

/-! ## Configurations -/

/-- The value of a field: the one that is given, or its default. -/
inductive Gets (f : Field) : List String → f.Value → Prop
  | given {s : String} {v : f.Value} : f.form.Says s v → Gets f [s] v
  | default {v : f.Value} : f.default? = some v → Gets f [] v

/-- Pairs describe a configuration, which has not been checked yet. -/
def Describes (pairs : List (String × String)) (c : Configuration) : Prop :=
  ∀ f, Gets f (given pairs f) (c.get f)

theorem gets_iff {v : f.Value} : Gets f l v ↔ ∃ o, Takes f l none o ∧ (o <|> f.default?) = some v := by
  constructor
  · intro h
    cases h with
    | given hs => exact ⟨_, .take hs, rfl⟩
    | default hd => exact ⟨none, .keep, hd⟩
  · rintro ⟨o, ht, ho⟩
    cases ht with
    | keep => exact .default ho
    | take hs =>
      cases ho
      exact .given hs

theorem describes_iff : Describes pairs c ↔ ∃ d, readPairs .empty pairs = .ok d ∧ d.complete = .ok c := by
  simp only [Describes, gets_iff, Classical.skolem, forall_and, readPairs_eq_ok, complete_eq_ok]
  rfl

theorem problem?_eq_none : c.problem? = none ↔ c.workerPoolSize ≠ 0 ∧ c.recommendationPoolSize ≠ 0 ∧
    c.jobQueueCapacity ≠ 0 ∧ c.unregisteredSinkCapacity ≠ 0 ∧ c.targetConcurrency ≠ 0 ∧
    c.historyCap ≠ 0 := by
  unfold problem?
  split_ifs <;> simp only [false_iff, true_iff] <;> omega

/-- Pairs are accepted just if they describe a configuration that passes the checks. -/
theorem ofPairs_eq_ok : ofPairs source pairs = .ok c ↔ Describes pairs c ∧ c.problem? = none := by
  rw [describes_iff, ofPairs]
  cases readPairs .empty pairs with
  | error e => simp [Except.bind, Except.mapError, bind]
  | ok d =>
    simp only [Except.bind, Except.ok.injEq, exists_eq_left']
    cases d.complete with
    | error e => simp [Except.mapError, bind, Except.bind]
    | ok c' =>
      simp only [Except.mapError, bind, Except.bind, Except.ok.injEq]
      cases hp : c'.problem? with
      | some problem =>
        refine ⟨nofun, ?_⟩
        rintro ⟨rfl, hnone⟩
        cases hp.symm.trans hnone
      | none =>
        refine ⟨fun h => ?_, fun h => congrArg Except.ok h.1⟩
        cases h
        exact ⟨rfl, hp⟩

/-! ## What can be said of pairs -/

/-- The fields that have to be set. -/
theorem default?_eq_none : f.default? = none ↔
    f ∈ [.rabbitmqUrl, .redisUrl, .databaseUrl, .roomServiceUrl, .fcmProjectId] := by
  cases f <;> simp [Field.default?]

theorem exists_gets : (∃ v, Gets f l v) ↔ l.length ≤ 1 ∧ (f.default? = none → l ≠ []) ∧
    ∀ s ∈ l, ∃ v, f.form.Says s v := by
  constructor
  · rintro ⟨v, h⟩
    cases h with
    | given hs => exact ⟨Nat.le_refl 1, nofun, fun s hm => List.mem_singleton.1 hm ▸ ⟨v, hs⟩⟩
    | default hd => exact ⟨Nat.zero_le 1, fun hn => absurd (hn.symm.trans hd) nofun, nofun⟩
  · rintro ⟨hone, hset, hfit⟩
    match l with
    | [] =>
      obtain ⟨v, hv⟩ := Option.ne_none_iff_exists'.1 fun hn => hset hn rfl
      exact ⟨v, .default hv⟩
    | [s] =>
      obtain ⟨v, hs⟩ := hfit s (List.mem_singleton_self s)
      exact ⟨v, .given hs⟩
    | _ :: _ :: _ => simp at hone

/-- Some configuration is described just if no field has two values, none that has to be set has no value, and
each value fits its field. -/
theorem exists_describes : (∃ c, Describes pairs c) ↔ (∀ f, (given pairs f).length ≤ 1) ∧
    (∀ f ∈ [Field.rabbitmqUrl, .redisUrl, .databaseUrl, .roomServiceUrl, .fcmProjectId],
      given pairs f ≠ []) ∧
    ∀ f, ∀ s ∈ given pairs f, ∃ v, f.form.Says s v := by
  have hall : (∃ c, Describes pairs c) ↔ ∀ f, ∃ v, Gets f (given pairs f) v := by
    refine ⟨fun ⟨c, h⟩ f => ⟨c.get f, h f⟩, fun h => ?_⟩
    choose get hget using h
    exact ⟨⟨get⟩, hget⟩
  simp only [hall, exists_gets, forall_and, default?_eq_none]

theorem Gets.cases {v : f.Value} (h : Gets f l v) :
    (∃ s, l = [s] ∧ f.form.Says s v) ∨ l = [] ∧ f.default? = some v := by
  cases h with
  | given hs => exact .inl ⟨_, rfl, hs⟩
  | default hd => exact .inr ⟨rfl, hd⟩

/-- A size that has a default other than zero is zero just if that is said. -/
theorem size_ne_zero {x : UInt64} (usual : UInt64) (hu : usual.toNat ≠ 0)
    (h : (∃ s, l = [s] ∧ Form.Says .size s x) ∨ l = [] ∧ some usual = some x) :
    x.toNat ≠ 0 ↔ ∀ s ∈ l, ¬ Number.Unsigned s.toList 0 := by
  rcases h with ⟨s, rfl, ⟨⟩⟩ | ⟨rfl, ⟨⟩⟩
  · next hs =>
    simp only [List.mem_singleton, forall_eq]
    exact ⟨fun hx h0 => hx (hs.eq h0), fun h0 hx => h0 (hx ▸ hs)⟩
  · simp [hu]

/-- The checks are passed just if nothing that may not be zero is said to be so. -/
theorem Describes.problem?_eq_none (h : Describes pairs c) : c.problem? = none ↔
    ∀ f ∈ [Field.workerPoolSize, .recommendationPoolSize, .jobQueueCapacity, .unregisteredSinkCapacity,
      .targetConcurrency, .historyCap], ∀ s ∈ given pairs f, ¬ Number.Unsigned s.toList 0 := by
  have hworkers := size_ne_zero 5 (by decide) (h .workerPoolSize).cases
  have hrecommendations := size_ne_zero 2 (by decide) (h .recommendationPoolSize).cases
  have hqueue := size_ne_zero 100 (by decide) (h .jobQueueCapacity).cases
  have hsink := size_ne_zero 64 (by decide) (h .unregisteredSinkCapacity).cases
  have htargets := size_ne_zero 8 (by decide) (h .targetConcurrency).cases
  have hhistory := size_ne_zero 10 (by decide) (h .historyCap).cases
  simp only [Configuration.problem?_eq_none, List.forall_mem_cons, ← hworkers, ← hrecommendations, ← hqueue,
    ← hsink, ← htargets, ← hhistory]
  simp

/-! ## Changes of pairs -/

theorem Gets.perm {l' : List String} {v : f.Value} (h : Gets f l v) (hp : l.Perm l') : Gets f l' v := by
  cases h with
  | given hs => exact List.singleton_perm.1 hp ▸ .given hs
  | default hd => exact List.nil_perm.1 hp ▸ .default hd

theorem Describes.perm (h : Describes pairs c) (hp : ∀ f, (given pairs f).Perm (given pairs' f)) :
    Describes pairs' c := fun f => (h f).perm (hp f)

/-- What comes of pairs depends on which values they give, and not on their order. -/
theorem ofPairs_perm (hp : ∀ f, (given pairs f).Perm (given pairs' f)) :
    (ofPairs source pairs').toOption = (ofPairs source pairs).toOption := by
  have hok {e : Except ConfigurationError Configuration} {c : Configuration} :
      e.toOption = some c ↔ e = .ok c := by
    cases e <;> simp [Except.toOption]
  refine Option.ext fun c => ?_
  rw [hok, hok, ofPairs_eq_ok, ofPairs_eq_ok]
  exact and_congr_left' ⟨fun h => h.perm fun f => (hp f).symm, fun h => h.perm hp⟩

theorem given_recased {recased : List (String × String)}
    (h : List.Forall₂ (fun p q => Field.SameLetters p.1 q.1 ∧ p.2 = q.2) pairs recased) (f : Field) :
    given recased f = given pairs f := by
  induction h with
  | nil => rfl
  | @cons p q pairs recased hpq _ ih =>
    obtain ⟨name, value⟩ := p
    obtain ⟨name', value'⟩ := q
    obtain ⟨hname, rfl⟩ := hpq
    by_cases hf : Field.lower name = f.name
    · rw [given_cons_self hf, given_cons_self (hname.lower_eq ▸ hf), ih]
    · rw [given_cons_of_ne hf, given_cons_of_ne (hname.lower_eq ▸ hf), ih]

theorem given_unknown {unknown : List (String × String)}
    (h : ∀ p ∈ unknown, ∀ f : Field, Field.lower p.1 ≠ f.name) (f : Field) : given unknown f = [] := by
  rw [given, List.map_eq_nil_iff, List.filter_eq_nil_iff]
  exact fun p hp hf => h p hp f (of_decide_eq_true hf)

/-- Which pairs are accepted: no field is given two values, the five fields that have no default are given one,
every value can be read in the form of its field, and nothing that may not be zero is. Then each field has the value
that it was given, or its default.

Neither the order of the pairs nor the case of the letters in their names makes a difference to that, nor do
pairs with other names, however many there are. -/
theorem read_exact (source : PairSource) (pairs : List (String × String)) :
    ((∃ c, ofPairs source pairs = .ok c) ↔
      (∀ f, (given pairs f).length ≤ 1) ∧
      (∀ f ∈ [Field.rabbitmqUrl, .redisUrl, .databaseUrl, .roomServiceUrl, .fcmProjectId],
        given pairs f ≠ []) ∧
      (∀ f, ∀ s ∈ given pairs f, ∃ v, f.form.Says s v) ∧
      ∀ f ∈ [Field.workerPoolSize, .recommendationPoolSize, .jobQueueCapacity, .unregisteredSinkCapacity,
        .targetConcurrency, .historyCap], ∀ s ∈ given pairs f, ¬ Number.Unsigned s.toList 0) ∧
    (∀ c, ofPairs source pairs = .ok c → ∀ f, (∃ s, given pairs f = [s] ∧ f.form.Says s (c.get f)) ∨
      given pairs f = [] ∧ f.default? = some (c.get f)) ∧
    ∀ recased unknown pairs',
      List.Forall₂ (fun p q => Field.SameLetters p.1 q.1 ∧ p.2 = q.2) pairs recased →
      (∀ p ∈ unknown, ∀ f : Field, Field.lower p.1 ≠ f.name) → pairs'.Perm (recased ++ unknown) →
      (ofPairs source pairs').toOption = (ofPairs source pairs).toOption := by
  refine ⟨?_, fun c h f => ((ofPairs_eq_ok.1 h).1 f).cases, ?_⟩
  · rw [← and_assoc, ← and_assoc, and_assoc (a := ∀ f, (given pairs f).length ≤ 1), ← exists_describes]
    constructor
    · rintro ⟨c, h⟩
      obtain ⟨hd, hp⟩ := ofPairs_eq_ok.1 h
      exact ⟨⟨c, hd⟩, hd.problem?_eq_none.1 hp⟩
    · rintro ⟨⟨c, hd⟩, hp⟩
      exact ⟨c, ofPairs_eq_ok.2 ⟨hd, hd.problem?_eq_none.2 hp⟩⟩
  · intro recased unknown pairs' hrecased hunknown hperm
    refine ofPairs_perm fun f => ?_
    have hgiven : given (recased ++ unknown) f = given pairs f := by
      have happend : given (recased ++ unknown) f = given recased f ++ given unknown f := by
        simp [given]
      rw [happend, given_recased hrecased, given_unknown hunknown, List.append_nil]
    exact hgiven ▸ ((hperm.symm.filter _).map _)

/-- What has to be set. -/
def required : List (String × String) :=
  [("RABBITMQ_URL", "amqp://localhost"), ("REDIS_URL", "redis://localhost"),
    ("DATABASE_URL", "postgres://localhost"), ("ROOM_SERVICE_URL", "http://localhost"),
    ("FCM_PROJECT_ID", "social")]

/-- What has to be set, and how long histories may be. -/
def capped : List (String × String) := required ++ [("HISTORY_CAP", "+012")]

/-- The same with names in other letters. -/
def recased : List (String × String) :=
  [("rabbitmq_url", "amqp://localhost"), ("redis_url", "redis://localhost"),
    ("database_url", "postgres://localhost"), ("room_service_url", "http://localhost"),
    ("fcm_project_ID", "social"), ("history_Cap", "+012")]

/-- The same in another order, and a name that means nothing twice. -/
def disordered : List (String × String) :=
  [("PATH", "/bin"), ("history_Cap", "+012"), ("redis_url", "redis://localhost"),
    ("rabbitmq_url", "amqp://localhost"), ("fcm_project_ID", "social"), ("path", ""),
    ("database_url", "postgres://localhost"), ("room_service_url", "http://localhost")]

theorem read_exact_required : ∃ c, ofPairs .given capped = .ok c ∧ c.historyCap = 12 ∧
    c.workerPoolSize = 5 ∧ (ofPairs .given disordered).toOption = some c := by
  obtain ⟨c, hc⟩ : ∃ c, ofPairs .given capped = .ok c := ⟨_, rfl⟩
  obtain ⟨-, hvalue, hsame⟩ := read_exact .given capped
  have hcap : c.historyCap = 12 := by
    have hsaid : Number.Unsigned "+012".toList 12 := .plus ⟨nofun, [0, 1, 2], by decide, rfl, rfl⟩
    rcases hvalue c hc .historyCap with ⟨s, hg, ⟨⟩⟩ | ⟨hg, -⟩
    · next hs =>
      cases (show given capped .historyCap = ["+012"] by decide +kernel).symm.trans hg
      exact hs.eq hsaid
    · exact absurd hg (by decide +kernel)
  have hworkers : c.workerPoolSize = 5 := by
    rcases hvalue c hc .workerPoolSize with ⟨s, hg, -⟩ | ⟨-, hd⟩
    · cases (show given capped .workerPoolSize = [] by decide +kernel).symm.trans hg
    · exact congrArg UInt64.toNat (Option.some.inj hd).symm
  have hrecased : List.Forall₂ (fun p q => Field.SameLetters p.1 q.1 ∧ p.2 = q.2) capped recased := by
    simp only [capped, required, List.cons_append, List.nil_append, recased, Field.SameLetters,
      List.forall₂_cons, List.forall₂_nil_left_iff]
    decide +kernel
  have hunknown : ∀ p ∈ [("PATH", "/bin"), ("path", "")], ∀ f : Field, Field.lower p.1 ≠ f.name := by
    intro p hp
    refine Field.ofName?_eq_none.1 ?_
    simp only [List.mem_cons, List.not_mem_nil, or_false] at hp
    rcases hp with rfl | rfl <;> decide +kernel
  have hdisordered := hsame recased _ disordered hrecased hunknown (by decide +kernel)
  exact ⟨c, hc, hcap, hworkers, hdisordered.trans (by rw [hc]; rfl)⟩

end Configuration

end Herald
