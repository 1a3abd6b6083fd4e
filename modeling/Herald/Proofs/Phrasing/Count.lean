import Herald.Proofs.Phrasing

/-!
# How many people an alert tells of

An alert names up to three people and tells how many others there are. Names and number come from different places, so
there may be fewer names than people, but not so few that not even those can be shown who are to be.

* `Says`: what an alert says, by the number of people.
* `pluralise_eq_ok`, `pluralise_eq_error`: when there is an alert, and which.
* `strict?_eq`: numbers of 64 bits are enough, and no name is looked for in vain.
* `pluralise_exact`: all of this at once.
-/

namespace Herald.Phrasing

variable {stem : String} {leading : Option String} {names : List String} {count : Nat} {alert : Alert}

/-! ## The table -/

/-- What is said about so many people: up to three names, and how many more there are. -/
inductive Says (stem : String) (leading : Option String) : List String → Nat → Alert → Prop
  | one (a : String) (rest : List String) : Says stem leading (a :: rest) 1 ⟨stem ++ "_1", leading.toList ++ [a]⟩
  | two (a b : String) (rest : List String) :
    Says stem leading (a :: b :: rest) 2 ⟨stem ++ "_2", leading.toList ++ [a, b]⟩
  | three (a b c : String) (rest : List String) :
    Says stem leading (a :: b :: c :: rest) 3 ⟨stem ++ "_3", leading.toList ++ [a, b, c]⟩
  | more (a b c : String) (rest : List String) {others : Nat} : 0 < others →
    Says stem leading (a :: b :: c :: rest) (3 + others)
      ⟨stem ++ "_3_and_more", leading.toList ++ [a, b, c, Decimal.ofNat others]⟩

theorem Says.pluralise (h : Says stem leading names count alert) :
    pluralise stem leading names count = .ok alert := by
  cases h with
  | one a rest =>
    rw [pluralise_ok (by decide) (by simp), String.append_assoc]
    simp [unnamed, show "_" ++ sizeSuffix 1 = "_1" from rfl]
  | two a b rest =>
    rw [pluralise_ok (by decide) (by simp), String.append_assoc]
    simp [unnamed, show "_" ++ sizeSuffix 2 = "_2" from rfl]
  | three a b c rest =>
    rw [pluralise_ok (by decide) (by simp), String.append_assoc]
    simp [unnamed, show "_" ++ sizeSuffix 3 = "_3" from rfl]
  | @more a b c rest others h =>
    have hle : ¬ 3 + others ≤ 3 := by omega
    have hkey : "_" ++ sizeSuffix (3 + others) = "_3_and_more" := by rw [sizeSuffix, if_neg hle]; rfl
    rw [pluralise_ok (by omega) (by simp), String.append_assoc, hkey, unnamed, if_neg hle,
      Nat.add_sub_cancel_left]
    simp

/-- Those who are named and those who are not add up to all. -/
theorem Says.total (h : Says stem leading names count alert) : ∃ others,
    (names.take (min count 3)).length + others = count ∧
    alert.arguments =
      leading.toList ++ names.take (min count 3) ++ if others = 0 then [] else [Decimal.ofNat others] := by
  cases h with
  | one a rest => exact ⟨0, by simp⟩
  | two a b rest => exact ⟨0, by simp⟩
  | three a b c rest => exact ⟨0, by simp⟩
  | @more a b c rest others h => exact ⟨others, by simp, by simp [Nat.ne_of_gt h]⟩

/-- There are not as many names as are to be shown, or nobody is there. -/
def TooFew (names : List String) (count : Nat) : Prop := count = 0 ∨ names.length < min count 3

/-- If there are as many names as are to be shown, something is said. -/
theorem exists_says (stem : String) (leading : Option String) (h : ¬ TooFew names count) :
    ∃ alert, Says stem leading names count alert := by
  obtain ⟨hc, hn⟩ := not_or.1 h
  match names with
  | [] =>
    simp at hn
    omega
  | [a] =>
    obtain rfl : count = 1 := by simp at hn; omega
    exact ⟨_, .one a []⟩
  | [a, b] =>
    obtain rfl | rfl : count = 1 ∨ count = 2 := by simp at hn; omega
    · exact ⟨_, .one a [b]⟩
    · exact ⟨_, .two a b []⟩
  | a :: b :: c :: rest =>
    obtain rfl | rfl | rfl | ⟨others, ho, rfl⟩ :
        count = 1 ∨ count = 2 ∨ count = 3 ∨ ∃ others, 0 < others ∧ count = 3 + others := by
      by_cases h : count ≤ 3
      · omega
      · exact .inr (.inr (.inr ⟨count - 3, by omega, by omega⟩))
    · exact ⟨_, .one a (b :: c :: rest)⟩
    · exact ⟨_, .two a b (c :: rest)⟩
    · exact ⟨_, .three a b c rest⟩
    · exact ⟨_, .more a b c rest ho⟩

theorem pluralise_of_tooFew (h : TooFew names count) : pluralise stem leading names count =
    .error (.notEnoughMembers (max (min count 3) 1) names.length) := if_pos h

theorem pluralise_eq_error {error : BuildError} : pluralise stem leading names count = .error error ↔
    TooFew names count ∧ error = .notEnoughMembers (max (min count 3) 1) names.length := by
  by_cases h : TooFew names count
  · simp [pluralise_of_tooFew h, h, eq_comm]
  · obtain ⟨alert, hs⟩ := exists_says stem leading h
    simp [hs.pluralise, h]

theorem pluralise_eq_ok : pluralise stem leading names count = .ok alert ↔ Says stem leading names count alert := by
  refine ⟨fun h => ?_, Says.pluralise⟩
  by_cases hf : TooFew names count
  · simp [pluralise_of_tooFew hf] at h
  · obtain ⟨alert', hs⟩ := exists_says stem leading hf
    cases hs.pluralise.symm.trans h
    exact hs

/-! ## Numbers of 64 bits -/

/-- The first so many of a list, which has to have as many. -/
def first? (n : Nat) (l : List String) : Option (List String) := if n ≤ l.length then some (l.take n) else none

/-- The difference of two numbers, the first of which has to be as large as the second. -/
def minus? (a b : UInt64) : Option UInt64 := if b ≤ a then some (a - b) else none

/-- What is said, by numbers of 64 bits. None if there is no such part of the list, or no such number. -/
def strict? (stem : String) (leading : Option String) (names : List String) (count : UInt64) :
    Option (Except BuildError Alert) :=
  let shown := min count 3
  if count = 0 ∨ names.length < shown.toNat then
    some (.error (.notEnoughMembers (max shown.toNat 1) names.length))
  else do
    let arguments := leading.toList ++ (← first? shown.toNat names)
    if 3 < count then
      some (.ok ⟨stem ++ "_3_and_more", arguments ++ [Decimal.ofNat (← minus? count 3).toNat]⟩)
    else some (.ok ⟨stem ++ "_" ++ Decimal.ofNat count.toNat, arguments⟩)

theorem toNat_min (a b : UInt64) : (min a b).toNat = min a.toNat b.toNat := by
  show (if a ≤ b then a else b).toNat = min a.toNat b.toNat
  split
  · next h => exact (Nat.min_eq_left (UInt64.le_iff_toNat_le.1 h)).symm
  · next h => exact (Nat.min_eq_right (Nat.le_of_not_le fun hle => h (UInt64.le_iff_toNat_le.2 hle))).symm

/-- There always is: no name is looked for that is not there, and nothing is taken from what is less. -/
theorem strict?_eq (stem : String) (leading : Option String) (names : List String) (count : UInt64) :
    strict? stem leading names count = some (pluralise stem leading names count.toNat) := by
  have hshown : (min count 3).toNat = min count.toNat 3 := toNat_min count 3
  have hfew : count = 0 ∨ names.length < (min count 3).toNat ↔ TooFew names count.toNat := by
    rw [TooFew, hshown, ← UInt64.toNat_inj]
    rfl
  have hmore : 3 < count ↔ ¬ count.toNat ≤ 3 := UInt64.lt_iff_toNat_lt.trans Nat.not_le.symm
  unfold strict?
  dsimp only
  by_cases h : TooFew names count.toNat
  · rw [if_pos (hfew.2 h), pluralise_of_tooFew h, hshown]
  · rw [if_neg (hfew.not.2 h)]
    obtain ⟨hc, hn⟩ := not_or.1 h
    have hfirst : first? (min count 3).toNat names = some (names.take (min 3 count.toNat)) := by
      rw [first?, hshown, if_pos (Nat.le_of_not_lt hn), Nat.min_comm]
    rw [pluralise_ok (Nat.pos_of_ne_zero hc) (by omega), hfirst]
    simp only [Option.bind_eq_bind, Option.bind_some, sizeSuffix, unnamed]
    by_cases hle : count.toNat ≤ 3
    · rw [if_neg (hmore.not_left.2 hle), if_pos hle, if_pos hle, List.append_nil]
    · have hminus : minus? count 3 = some (count - 3) :=
        if_pos (UInt64.le_iff_toNat_le.2 (Nat.le_of_not_le hle))
      have hdiff : (count - 3).toNat = count.toNat - 3 :=
        UInt64.toNat_sub_of_le _ _ (UInt64.le_iff_toNat_le.2 (Nat.le_of_not_le hle))
      have hkey : stem ++ "_" ++ "3_and_more" = stem ++ "_3_and_more" := String.append_assoc ..
      rw [if_pos (hmore.2 hle), if_neg hle, if_neg hle, hminus, Option.bind_some, hdiff, hkey]

/-- There is an alert unless nobody is there or names are missing, and it tells of everybody: of the first three by
name, and of the others by their number. Nothing is asked of names that are not there, and no number is out of range,
whatever the names and the number of people are. -/
theorem pluralise_exact (stem : String) (leading : Option String) (names : List String) (count : UInt64) :
    strict? stem leading names count = some (pluralise stem leading names count.toNat) ∧
    (∀ error, pluralise stem leading names count.toNat = .error error ↔
      (count.toNat = 0 ∨ names.length < min count.toNat 3) ∧
        error = .notEnoughMembers (max (min count.toNat 3) 1) names.length) ∧
    ∀ alert, (pluralise stem leading names count.toNat = .ok alert ↔
      Says stem leading names count.toNat alert) ∧
      (pluralise stem leading names count.toNat = .ok alert → ∃ others,
        (names.take (min count.toNat 3)).length + others = count.toNat ∧
        alert.arguments = leading.toList ++ names.take (min count.toNat 3) ++
          if others = 0 then [] else [Decimal.ofNat others]) :=
  ⟨strict?_eq stem leading names count, fun _ => pluralise_eq_error,
    fun _ => ⟨pluralise_eq_ok, fun h => (pluralise_eq_ok.1 h).total⟩⟩

theorem pluralise_exact_crowd :
    pluralise "join" (some "Lounge") ["a", "b", "c", "d"] (18446744073709551615 : UInt64).toNat =
      .ok ⟨"join_3_and_more", ["Lounge", "a", "b", "c", "18446744073709551612"]⟩ ∧
    pluralise "join" none ["a", "b"] (5 : UInt64).toNat = .error (.notEnoughMembers 3 2) := by
  obtain ⟨-, -, hcrowd⟩ := pluralise_exact "join" (some "Lounge") ["a", "b", "c", "d"] 18446744073709551615
  obtain ⟨-, herror, -⟩ := pluralise_exact "join" none ["a", "b"] 5
  have hothers : 0 < 18446744073709551612 := by decide
  exact ⟨(hcrowd _).1.2 (.more "a" "b" "c" ["d"] hothers), (herror _).2 ⟨.inr (by decide), by decide⟩⟩

end Herald.Phrasing
