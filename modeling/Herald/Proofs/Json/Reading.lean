import Herald.Json.Reader
import Herald.Proofs.Json.Grammar
import Herald.Proofs.Text.Utf8

/-!
# Written values are read

Whichever way a value is written, with white space and escapes at will, it is read as that value.

* `unsigned_written`, `quoted_written`: numbers and texts in quotes.
* `Reads`: what the reader makes of values, items and members of so many tokens.
* `ofText?_written`, `ofOctets?_written`: a whole text.
-/

namespace Herald.Source

variable {rest : List Char} {ts : List Token} {cs w : List Char} {fuel : Nat}

/-! ## Numbers -/

/-- The text does not go on with a number. -/
def Stops (s : List Char) : Prop :=
  ∀ c rest, s = c :: rest → c.isDigit = false ∧ c ≠ '.' ∧ c ≠ 'e' ∧ c ≠ 'E'

theorem digits_append {ds : List Nat} (h : ∀ d ∈ ds, d < 10)
    (hr : ∀ c s, rest = c :: s → c.isDigit = false) :
    digits ((ds.map Decimal.digitChar ++ rest).map some) = (ds, rest.map some) := by
  induction ds with
  | nil =>
    match rest with
    | [] => rfl
    | c :: _ => simp [digits, Decimal.digit?, hr c _ rfl]
  | cons d ds ih =>
    have hd := Decimal.digit?_digitChar (h d (List.mem_cons_self ..))
    have ih := ih fun d hd => h d (List.mem_cons_of_mem _ hd)
    simp only [List.map_cons, List.cons_append, digits, hd, ih]

theorem wholePart_written {whole : List Nat} (hz : whole = [0] ∨ ∃ d ds, whole = d :: ds ∧ d ≠ 0)
    (h : ∀ d ∈ whole, d < 10) (hr : ∀ c s, rest = c :: s → c.isDigit = false) :
    wholePart ((whole.map Decimal.digitChar ++ rest).map some) = some (whole, rest.map some) := by
  have hd := digits_append h hr
  rcases hz with rfl | ⟨d, ds, rfl, hne⟩
  · rfl
  · have hall : ∀ d < 10, d ≠ 0 → Decimal.digitChar d ≠ '0' := by decide
    have hz := hall d (h d (List.mem_cons_self ..)) hne
    rw [wholePart, hd]
    simp [hz]

theorem fractionPart_written {fraction : List Nat} (h : ∀ d ∈ fraction, d < 10)
    (hr : ∀ c s, rest = c :: s → c.isDigit = false ∧ c ≠ '.') :
    fractionPart ((Numeral.fractionChars fraction ++ rest).map some) =
      some (fraction, rest.map some) := by
  cases fraction with
  | nil =>
    cases rest with
    | nil => rfl
    | cons c rest => simp [Numeral.fractionChars, fractionPart, (hr c _ rfl).2]
  | cons d ds =>
    have hd := digits_append h fun c s e => (hr c s e).1
    simp only [Numeral.fractionChars, List.cons_append, List.map_cons, fractionPart] at hd ⊢
    rw [hd]

theorem exponentPart_written {exponent : Option Int} (h : Numeral.ExponentWritten exponent w)
    (hr : Stops rest) : exponentPart ((w ++ rest).map some) = some (exponent, rest.map some) := by
  have hd {d : Nat} {ds : List Nat} (hlt : ∀ n ∈ d :: ds, n < 10) :
      digits (some (Decimal.digitChar d) ::
        (ds.map (some ∘ Decimal.digitChar) ++ rest.map some)) = (d :: ds, rest.map some) := by
    simpa using digits_append hlt fun c s e => (hr c s e).1
  have hsign : ∀ d < 10, Decimal.digitChar d ≠ '+' ∧ Decimal.digitChar d ≠ '-' := by decide
  cases h with
  | absent =>
    cases rest with
    | nil => rfl
    | cons c rest => simp [exponentPart, hr c _ rfl]
  | @bare e ds he hne hlt =>
    obtain ⟨d, ds, rfl⟩ := List.exists_cons_of_ne_nil hne
    have he : e = 'e' ∨ e = 'E' := by simpa using he
    have hs := hsign d (hlt d (List.mem_cons_self ..))
    simp [exponentPart, he, hs, hd hlt]
  | @plus e ds he hne hlt | @minus e ds he hne hlt =>
    obtain ⟨d, ds, rfl⟩ := List.exists_cons_of_ne_nil hne
    have he : e = 'e' ∨ e = 'E' := by simpa using he
    simp [exponentPart, he, hd hlt]

/-- What comes after the digits before the point is no digit. -/
theorem exponent_not_digit {exponent : Option Int} (h : Numeral.ExponentWritten exponent w)
    (hr : Stops rest) (c : Char) (s : List Char) (e : w ++ rest = c :: s) :
    c.isDigit = false ∧ c ≠ '.' := by
  have hall : ∀ c ∈ ['e', 'E'], c.isDigit = false ∧ c ≠ '.' := by simp
  cases h with
  | absent => exact ⟨(hr c s e).1, (hr c s e).2.1⟩
  | bare he | plus he | minus he => cases e; exact hall _ he

theorem fraction_not_digit {exponent : Option Int} (h : Numeral.ExponentWritten exponent w)
    (hr : Stops rest) (fraction : List Nat) (c : Char) (s : List Char)
    (e : Numeral.fractionChars fraction ++ (w ++ rest) = c :: s) : c.isDigit = false := by
  cases fraction with
  | nil => exact (exponent_not_digit h hr c s e).1
  | cons d ds => cases e; rfl

/-- A number behind its sign. -/
theorem unsigned_written {negative : Bool} {whole fraction : List Nat} {exponent : Option Int}
    (hz : whole = [0] ∨ ∃ d ds, whole = d :: ds ∧ d ≠ 0) (hw : ∀ d ∈ whole, d < 10)
    (hf : ∀ d ∈ fraction, d < 10) (hx : Numeral.ExponentWritten exponent w) (hr : Stops rest) :
    unsigned negative ((whole.map Decimal.digitChar ++
        (Numeral.fractionChars fraction ++ (w ++ rest))).map some) =
      some (.number ⟨negative, whole, fraction, exponent⟩, rest.map some) := by
  simp only [unsigned, wholePart_written hz hw (fraction_not_digit hx hr fraction),
    fractionPart_written hf (exponent_not_digit hx hr), exponentPart_written hx hr,
    Option.bind_eq_bind, Option.bind_some, Option.pure_def]

/-! ## Texts in quotes -/

theorem hex?_spelling {d : Nat} {c : Char} (h : c ∈ hexSpellings d) : hex? (some c) = some d := by
  have hall : ∀ d < 16, (hexSpellings d).all fun c => hex? (some c) == some d := by decide
  by_cases hd : d < 16
  · exact beq_iff_eq.1 (List.all_eq_true.1 (hall d hd) c h)
  · obtain ⟨s, hs, hc⟩ := List.mem_filterMap.1 h
    have hlen : ∀ s ∈ ["0123456789abcdef", "0123456789ABCDEF"], s.toList.length = 16 := by decide
    have hlt := (List.getElem?_eq_some_iff.1 hc).1
    rw [hlen s hs] at hlt
    exact absurd hlt hd

/-- Pieces stand for one character, whatever comes after them. -/
def ArePiecesOf (ps : List Piece) (c : Char) : Prop :=
  ∀ more, assemble (ps ++ more) = (assemble more).map (c :: ·)

/-- A character within 16 bits is no half of a pair. -/
theorem arePiecesOf_unit (c : Char) : ArePiecesOf [.unit c.toNat] c := by
  intro ps
  have hc : c.toNat < 0xD800 ∨ 0xDFFF < c.toNat ∧ c.toNat < 0x110000 := c.valid
  have hh : isHigh c.toNat = false := by simp [isHigh]; omega
  have hl : isLow c.toNat = false := by simp [isLow]; omega
  match ps with
  | [] => simp [assemble, hh, hl, Char.ofNat_toNat]
  | .unit m :: ps => simp [assemble, hh, hl, Char.ofNat_toNat]
  | .char d :: ps => simp [assemble, hh, hl, Char.ofNat_toNat]
  | .stray :: ps => simp [assemble, hh, hl, Char.ofNat_toNat]

theorem arePiecesOf_pair {c : Char} {high low : Nat} (hh : high < 0x400) (hl : low < 0x400)
    (h : c.toNat = 0x10000 + high * 0x400 + low) :
    ArePiecesOf [.unit (0xD800 + high), .unit (0xDC00 + low)] c := by
  intro ps
  have h1 : isHigh (0xD800 + high) = true := by simp [isHigh]; omega
  have h2 : isLow (0xDC00 + low) = true := by simp [isLow]; omega
  have hc : 0x10000 + (0xD800 + high - 0xD800) * 0x400 + (0xDC00 + low - 0xDC00) = c.toNat := by omega
  simp only [List.cons_append, List.nil_append, assemble, h1, h2, hc, Char.ofNat_toNat, if_true]

theorem pieces_unit {n : Nat} (h : UnitWritten n w) (s : List Char) :
    pieces ((w ++ s).map some) = (pieces (s.map some)).map fun r => (.unit n :: r.1, r.2) := by
  obtain ⟨ha, hb, hc, hd⟩ := h
  cases hs : pieces (s.map some) <;>
    simp [pieces, hex?_spelling ha, hex?_spelling hb, hex?_spelling hc, hex?_spelling hd, hs]

theorem pieces_short {l c : Char} (h : (c, l) ∈ shortEscapes) (s : Chars) :
    pieces (some '\\' :: some l :: s) = (pieces s).map fun r => (.char c :: r.1, r.2) := by
  have hall : ∀ p ∈ shortEscapes, p.2 ≠ 'u' ∧ shortEscape? p.2 = some p.1 := by decide
  obtain ⟨hu, he⟩ := hall _ h
  cases hs : pieces s <;> simp [pieces, hu, he, hs]

theorem pieces_plain {c : Char} (hq : c ≠ '"') (hb : c ≠ '\\') (hc : 0x20 ≤ c.toNat) (s : Chars) :
    pieces (some c :: s) = (pieces s).map fun r => (.char c :: r.1, r.2) := by
  cases hs : pieces s <;> simp [pieces, hb, Nat.not_lt.2 hc, hs]

theorem pieces_char {c : Char} (h : CharWritten c w) (s : List Char) : ∃ ps, ArePiecesOf ps c ∧
    pieces ((w ++ s).map some) = (pieces (s.map some)).map fun r => (ps ++ r.1, r.2) := by
  cases h with
  | plain hq hb hc => exact ⟨[.char c], fun _ => rfl, pieces_plain hq hb hc _⟩
  | short hl => exact ⟨[.char c], fun _ => rfl, pieces_short hl _⟩
  | unit hu => exact ⟨_, arePiecesOf_unit c, pieces_unit hu s⟩
  | pair hw hx hh hl hc =>
    refine ⟨_, arePiecesOf_pair hh hl hc, ?_⟩
    rw [List.append_assoc, pieces_unit hw, pieces_unit hx, Option.map_map]
    rfl

theorem pieces_written {cs w : List Char} (h : CharsWritten cs w) (rest : List Char) : ∃ ps,
    pieces ((w ++ ('"' :: rest)).map some) = some (ps, rest.map some) ∧ assemble ps = some cs := by
  induction h with
  | nil => exact ⟨[], rfl, rfl⟩
  | @cons c cs w ws hc _ ih =>
    obtain ⟨ps, hps, e⟩ := ih
    obtain ⟨p, hp, hc⟩ := pieces_char hc (ws ++ '"' :: rest)
    refine ⟨p ++ ps, ?_, by rw [hp, e]; rfl⟩
    rw [List.append_assoc, hc, hps]
    rfl

/-- A text in quotes, behind its first quote. -/
theorem quoted_written {s : String} (h : CharsWritten s.toList w) (rest : List Char) :
    quoted ((w ++ ('"' :: rest)).map some) = some (some s, rest.map some) := by
  obtain ⟨ps, hps, e⟩ := pieces_written h rest
  rw [quoted, hps]
  simp [e]

/-! ## Tokens -/

theorem skipSpace_cons {c : Option Char} (h : isSpace c = false) (s : Chars) :
    skipSpace (c :: s) = c :: s := by
  simp [skipSpace, h]

theorem skipSpace_blank {s : List Char} (h : Blank s) (cs : List Char) :
    skipSpace ((s ++ cs).map some) = skipSpace (cs.map some) := by
  have hall : ∀ c ∈ [' ', '\n', '\t', '\r'], isSpace (some c) = true := by simp [isSpace]
  induction s with
  | nil => rfl
  | cons c s ih =>
    have hc := hall c (h c (List.mem_cons_self ..))
    have ih := ih fun d hd => h d (List.mem_cons_of_mem _ hd)
    simpa [skipSpace, hc] using ih

/-- A digit is neither white space nor the start of anything but a number. -/
theorem not_mem_of_isDigit {c : Char} (h : c.isDigit = true) :
    c ∉ [' ', '\n', '\t', '\r', ']', '}', 'n', 't', 'f', '"', '-', '[', '{'] := by
  have hall : [' ', '\n', '\t', '\r', ']', '}', 'n', 't', 'f', '"', '-', '[', '{'].all (!·.isDigit) :=
    by decide
  intro hc
  simpa [h] using List.all_eq_true.1 hall c hc

/-- A number starts with a minus sign or a digit. -/
theorem number_eq_cons {n : Numeral} (h : n.Written w) :
    ∃ c cs, w = c :: cs ∧ (c = '-' ∨ c.isDigit = true) := by
  obtain ⟨hz, hw, -, -⟩ := h
  rename_i negative whole _ _ _
  cases negative with
  | true => exact ⟨'-', _, rfl, .inl rfl⟩
  | false =>
    obtain ⟨d, ds, rfl⟩ : ∃ d ds, whole = d :: ds := by
      rcases hz with rfl | ⟨d, ds, rfl, -⟩ <;> exact ⟨_, _, rfl⟩
    exact ⟨_, _, rfl, .inr (Decimal.isDigit_digitChar (hw d (List.mem_cons_self ..)))⟩

/-- A token starts with no white space, and only the end of a list or an object starts like it. -/
theorem token_eq_cons {t : Token} (h : t.Written w) : ∃ c cs, w = c :: cs ∧
    isSpace (some c) = false ∧ ∀ e ∈ [']', '}'], c = e → t = .mark e := by
  cases h with
  | @mark c hc =>
    have hall : ∀ c ∈ ['[', ']', '{', '}', ':', ','], isSpace (some c) = false := by
      simp [isSpace]
    exact ⟨c, [], rfl, hall c hc, fun _ _ e => e ▸ rfl⟩
  | null => exact ⟨_, _, rfl, rfl, by simp⟩
  | true => exact ⟨_, _, rfl, rfl, by simp⟩
  | false => exact ⟨_, _, rfl, rfl, by simp⟩
  | text => exact ⟨_, _, rfl, rfl, by simp⟩
  | number hn =>
    obtain ⟨c, cs, rfl, hc⟩ := number_eq_cons hn
    have hs : isSpace (some c) = false ∧ c ≠ ']' ∧ c ≠ '}' := by
      rcases hc with rfl | hc
      · decide
      · have hc := not_mem_of_isDigit hc
        simp only [List.mem_cons, not_or] at hc
        simp [isSpace, hc]
    exact ⟨c, cs, rfl, hs.1, by simp [hs.2]⟩

theorem skipSpace_token {t : Token} (h : t.Written w) (rest : List Char) :
    skipSpace ((w ++ rest).map some) = (w ++ rest).map some := by
  obtain ⟨c, w, rfl, hc, -⟩ := token_eq_cons h
  exact skipSpace_cons hc _

/-- White space in front of a token is passed over. -/
theorem TokensWritten.skip {t : Token} (h : TokensWritten (t :: ts) cs) : ∃ w rest,
    skipSpace (cs.map some) = (w ++ rest).map some ∧ t.Written w ∧ TokensWritten ts rest := by
  cases h with
  | @cons _ _ s w rest hs hw hr =>
    exact ⟨w, rest, (skipSpace_blank hs _).trans (skipSpace_token hw rest), hw, hr⟩

theorem TokensWritten.skip_mark {c : Char} (h : TokensWritten (.mark c :: ts) cs) : ∃ rest,
    skipSpace (cs.map some) = some c :: rest.map some ∧ TokensWritten ts rest := by
  obtain ⟨w, rest, hs, hw, hr⟩ := h.skip
  cases hw
  exact ⟨rest, hs, hr⟩

theorem TokensWritten.skip_text {s : Option String} (h : TokensWritten (.text s :: ts) cs) :
    ∃ r rest, skipSpace (cs.map some) = some '"' :: r ∧ quoted r = some (s, rest.map some) ∧
      TokensWritten ts rest := by
  obtain ⟨w, rest, hs, hw, hr⟩ := h.skip
  cases hw with
  | @text s w hw =>
    refine ⟨(w ++ ('"' :: rest)).map some, rest, ?_, quoted_written hw rest, hr⟩
    rw [hs]
    simp

/-- What may come after a value: a comma, the end of a list or of an object, or nothing. -/
def Follows (ts : List Token) : Prop := ∀ t rest, ts = t :: rest → ∃ c ∈ [',', ']', '}'], t = .mark c

theorem follows_mark {c : Char} (h : c ∈ [',', ']', '}']) : Follows (.mark c :: ts) := by
  rintro _ _ ⟨⟩
  exact ⟨c, h, rfl⟩

theorem follows_itemTokens (vs : List Source) (ts : List Token) : Follows (itemTokens vs ++ ts) := by
  cases vs <;> exact follows_mark (by decide)

theorem follows_memberTokens (ms : List (Option String × Source)) (ts : List Token) :
    Follows (memberTokens ms ++ ts) := by
  cases ms <;> exact follows_mark (by decide)

/-- What comes after a value does not go on with a number. -/
theorem TokensWritten.stops (h : TokensWritten ts cs) (hf : Follows ts) : Stops cs := by
  have hall : ∀ c ∈ [' ', '\n', '\t', '\r'] ++ [',', ']', '}'],
      c.isDigit = false ∧ c ≠ '.' ∧ c ≠ 'e' ∧ c ≠ 'E' := by simp
  have hblank {s : List Char} (hs : Blank s) (c : Char) (hc : c ∈ s) :
      c.isDigit = false ∧ c ≠ '.' ∧ c ≠ 'e' ∧ c ≠ 'E' :=
    hall c (List.mem_append_left _ (hs c hc))
  intro c rest e
  cases h with
  | nil hs => exact hblank hs c (e ▸ List.mem_cons_self ..)
  | @cons _ _ s _ _ hs hw =>
    cases s with
    | cons d s =>
      cases e
      exact hblank hs c (List.mem_cons_self ..)
    | nil =>
      obtain ⟨d, hd, rfl⟩ := hf _ _ rfl
      cases hw
      cases e
      exact hall c (List.mem_append_right _ hd)

/-! ## Values -/

/-- No value starts with the end of a list. -/
theorem tokens_eq_cons (v : Source) : ∃ t ts, v.tokens = t :: ts ∧ t ≠ .mark ']' := by
  cases v with
  | list items => cases items <;> exact ⟨_, _, rfl, by simp⟩
  | object members =>
    cases members with
    | nil => exact ⟨_, _, rfl, by simp⟩
    | cons m ms => exact ⟨_, _, rfl, by simp⟩
  | _ => exact ⟨_, _, rfl, by simp⟩

theorem value_of_skipSpace {s : Chars} (h : skipSpace s = (w ++ rest).map some) {t : Token}
    (hw : t.Written w) : value (fuel + 1) s = value (fuel + 1) ((w ++ rest).map some) := by
  rw [value, value, h, skipSpace_token hw]

theorem value_digit {c : Char} (h : c.isDigit = true) (s : Chars) :
    value (fuel + 1) (some c :: s) = unsigned false (some c :: s) := by
  have hc := not_mem_of_isDigit h
  simp only [List.mem_cons, List.not_mem_nil, or_false, not_or] at hc
  have hs := skipSpace_cons (c := some c) (by simp [isSpace, hc]) s
  simp [value, hs, hc]

theorem value_number {n : Numeral} (h : n.Written w) (hr : Stops rest) :
    value (fuel + 1) ((w ++ rest).map some) = some (.number n, rest.map some) := by
  cases h with
  | @mk negative whole fraction exponent x hz hw hf hx =>
    rw [← unsigned_written hz hw hf hx hr, List.append_assoc, List.append_assoc, List.append_assoc]
    cases negative with
    | true => rfl
    | false =>
      obtain ⟨d, ds, rfl⟩ : ∃ d ds, whole = d :: ds := by
        rcases hz with rfl | ⟨d, ds, rfl, -⟩ <;> exact ⟨_, _, rfl⟩
      exact value_digit (Decimal.isDigit_digitChar (hw d (List.mem_cons_self ..))) _

/-- What the reader makes of values, items and members: each token takes at most one unit of fuel. -/
structure Reads (fuel : Nat) : Prop where
  value : ∀ (v : Source) (ts : List Token) (cs : List Char), v.tokens.length ≤ fuel → Follows ts →
    TokensWritten (v.tokens ++ ts) cs →
    ∃ rest, value fuel (cs.map some) = some (v, rest.map some) ∧ TokensWritten ts rest
  items : ∀ (v : Source) (vs : List Source) (ts : List Token) (cs : List Char),
    v.tokens.length + (itemTokens vs).length ≤ fuel →
    TokensWritten (v.tokens ++ (itemTokens vs ++ ts)) cs →
    ∃ rest, items fuel (cs.map some) = some (v :: vs, rest.map some) ∧ TokensWritten ts rest
  members : ∀ (name : Option String) (v : Source) (ms : List (Option String × Source))
    (ts : List Token) (cs : List Char), v.tokens.length + (memberTokens ms).length < fuel →
    TokensWritten (.text name :: .mark ':' :: (v.tokens ++ (memberTokens ms ++ ts))) cs →
    ∃ rest, members fuel (cs.map some) = some ((name, v) :: ms, rest.map some) ∧
      TokensWritten ts rest

theorem Reads.value_succ (h : Reads fuel) {v : Source} (hl : v.tokens.length ≤ fuel + 1)
    (hf : Follows ts) (ht : TokensWritten (v.tokens ++ ts) cs) :
    ∃ rest, Source.value (fuel + 1) (cs.map some) = some (v, rest.map some) ∧
      TokensWritten ts rest := by
  match v with
  | .null =>
    obtain ⟨w, rest, hs, hw, hr⟩ := ht.skip
    rw [value_of_skipSpace hs hw]
    cases hw
    exact ⟨rest, rfl, hr⟩
  | .bool b =>
    obtain ⟨w, rest, hs, hw, hr⟩ := ht.skip
    rw [value_of_skipSpace hs hw]
    cases hw <;> exact ⟨rest, rfl, hr⟩
  | .number n =>
    obtain ⟨w, rest, hs, hw, hr⟩ := ht.skip
    rw [value_of_skipSpace hs hw]
    cases hw with
    | number hw => exact ⟨rest, value_number hw (hr.stops hf), hr⟩
  | .text s =>
    obtain ⟨r, rest, hs, hq, hr⟩ := TokensWritten.skip_text ht
    refine ⟨rest, ?_, hr⟩
    simp [Source.value, hs, hq]
  | .list [] =>
    obtain ⟨r, hs, hr⟩ := TokensWritten.skip_mark ht
    obtain ⟨rest, hs', hr⟩ := hr.skip_mark
    refine ⟨rest, ?_, hr⟩
    simp [Source.value, hs, hs']
  | .list (v :: vs) =>
    rw [tokens, List.cons_append, List.append_assoc] at ht
    simp only [tokens, List.length_cons, List.length_append] at hl
    obtain ⟨r, hs, hr⟩ := ht.skip_mark
    obtain ⟨t, ts', e, hne⟩ := tokens_eq_cons v
    -- The reader looks behind the white space for the end of the list first.
    rw [e, List.cons_append] at hr
    obtain ⟨w, r', hs', hw, hr⟩ := hr.skip
    obtain ⟨c, w', rfl, -, hc⟩ := token_eq_cons hw
    have hne : c ≠ ']' := fun hc' => hne (hc ']' (by decide) hc')
    have hr : TokensWritten (v.tokens ++ (itemTokens vs ++ ts)) (c :: w' ++ r') := by
      rw [e, List.cons_append]; exact hr.next hw
    obtain ⟨rest, he, hr⟩ := h.items v vs ts _ (by omega) hr
    refine ⟨rest, ?_, hr⟩
    simp only [List.cons_append, List.map_cons] at hs' he
    generalize (w' ++ r').map some = q at hs' he
    simp [Source.value, hs, hs', hne, he]
  | .object [] =>
    obtain ⟨r, hs, hr⟩ := TokensWritten.skip_mark ht
    obtain ⟨rest, hs', hr⟩ := hr.skip_mark
    refine ⟨rest, ?_, hr⟩
    simp [Source.value, hs, hs']
  | .object ((name, v) :: ms) =>
    rw [tokens, List.cons_append, List.cons_append, List.cons_append, List.append_assoc] at ht
    simp only [tokens, List.length_cons, List.length_append] at hl
    obtain ⟨r, hs, hr⟩ := ht.skip_mark
    obtain ⟨q, -, hq, -⟩ := hr.skip_text
    obtain ⟨w, r', hs', hw, hr⟩ := hr.skip
    obtain ⟨rest, he, hr⟩ := h.members name v ms ts _ (by omega) (hr.next hw)
    rw [← hs', hq] at he
    exact ⟨rest, by simp [Source.value, hs, hq, he], hr⟩

theorem Reads.items_succ (h : Reads fuel) {v : Source} {vs : List Source}
    (hl : v.tokens.length + (itemTokens vs).length ≤ fuel + 1)
    (ht : TokensWritten (v.tokens ++ (itemTokens vs ++ ts)) cs) :
    ∃ rest, Source.items (fuel + 1) (cs.map some) = some (v :: vs, rest.map some) ∧
      TokensWritten ts rest := by
  have hpos : 0 < (itemTokens vs).length := by cases vs <;> exact Nat.succ_pos _
  obtain ⟨r, he, hr⟩ := h.value v _ _ (by omega) (follows_itemTokens vs ts) ht
  cases vs with
  | nil =>
    obtain ⟨rest, hs, hr⟩ := TokensWritten.skip_mark hr
    exact ⟨rest, by simp [Source.items, he, hs], hr⟩
  | cons w vs =>
    simp only [itemTokens, List.cons_append, List.append_assoc, List.length_cons,
      List.length_append] at hr hl
    obtain ⟨r', hs, hr⟩ := hr.skip_mark
    obtain ⟨rest, he', hr⟩ := h.items w vs ts r' (by omega) hr
    exact ⟨rest, by simp [Source.items, he, hs, he'], hr⟩

theorem Reads.members_succ (h : Reads fuel) {name : Option String} {v : Source}
    {ms : List (Option String × Source)}
    (hl : v.tokens.length + (memberTokens ms).length < fuel + 1)
    (ht : TokensWritten (.text name :: .mark ':' :: (v.tokens ++ (memberTokens ms ++ ts))) cs) :
    ∃ rest, Source.members (fuel + 1) (cs.map some) = some ((name, v) :: ms, rest.map some) ∧
      TokensWritten ts rest := by
  have hpos : 0 < (memberTokens ms).length := by cases ms <;> exact Nat.succ_pos _
  obtain ⟨q, r, hs, hq, hr⟩ := ht.skip_text
  obtain ⟨r', hs', hr⟩ := hr.skip_mark
  obtain ⟨r, he, hr⟩ := h.value v _ _ (by omega) (follows_memberTokens ms ts) hr
  cases ms with
  | nil =>
    obtain ⟨rest, hs'', hr⟩ := TokensWritten.skip_mark hr
    exact ⟨rest, by simp [Source.members, hs, hq, hs', he, hs''], hr⟩
  | cons m ms =>
    obtain ⟨name', w⟩ := m
    simp only [memberTokens, List.cons_append, List.append_assoc, List.length_cons,
      List.length_append] at hr hl
    obtain ⟨r'', hs'', hr⟩ := hr.skip_mark
    obtain ⟨rest, he', hr⟩ := h.members name' w ms ts r'' (by omega) hr
    exact ⟨rest, by simp [Source.members, hs, hq, hs', he, hs'', he'], hr⟩

theorem reads (fuel : Nat) : Reads fuel := by
  induction fuel with
  | zero =>
    refine ⟨fun v ts cs hl => ?_, fun v vs ts cs hl => ?_, fun name v ms ts cs hl => ?_⟩
    · obtain ⟨t, ts, e, -⟩ := tokens_eq_cons v
      simp [e] at hl
    · obtain ⟨t, ts, e, -⟩ := tokens_eq_cons v
      simp [e] at hl
    · exact absurd hl (Nat.not_lt_zero _)
  | succ fuel ih =>
    exact ⟨fun v ts cs hl hf => ih.value_succ hl hf, fun v vs ts cs hl => ih.items_succ hl,
      fun name v ms ts cs hl => ih.members_succ hl⟩

/-- Each token takes a character. -/
theorem TokensWritten.length_le (h : TokensWritten ts cs) : ts.length ≤ cs.length := by
  induction h with
  | nil => exact Nat.zero_le _
  | cons hs hw _ ih =>
    obtain ⟨c, w, rfl, -⟩ := token_eq_cons hw
    simp only [List.length_cons, List.length_append]
    omega

/-- However a value is written, it is read as that value. -/
theorem ofText?_written {v : Source} {text : String} (h : v.Written text) : ofText? text = some v := by
  have ht : TokensWritten (v.tokens ++ []) text.toList := by rwa [List.append_nil]
  have hl : v.tokens.length ≤ text.toList.length + 1 := Nat.le_succ_of_le h.length_le
  obtain ⟨rest, e, hr⟩ := (reads _).value v [] _ hl (fun _ _ h => nomatch h) ht
  cases hr with
  | nil hs =>
    have hs := skipSpace_blank hs []
    rw [List.append_nil] at hs
    have hs : skipSpace (rest.map some) = [] := hs
    simp [ofText?, ofChars?, e, hs]

/-- However a value is written, it is read from the octets of the text. -/
theorem ofOctets?_written {v : Source} {text : String} (h : v.Written text) :
    ofOctets? (Utf8.encode text) = some v := by
  rw [ofOctets?, Utf8.decode_encode]
  exact ofText?_written h

/-- The compact text of a value is read as that value. -/
theorem ofText?_compact {v : Json} (h : v.isPlain = true) : ofText? v.compact = some v.toSource :=
  ofText?_written (written_compact h)

end Herald.Source
