import Herald.Proofs.Delivery.Sends

/-!
# The course of an errand

How far an errand has come, and what its record says then. Each turn of a flight adds to the record
of its own errand what belongs to the next stage, and nothing else.

* `Fits`, `Over`: the records of errands at a stage, and of errands that are over.
* `proceed_leads`: a turn leads to a record that fits the next stage.
-/

namespace Herald.Delivery

variable (settings : Settings) (worlds : World → Prop) (e : Errand)

/-- The cache was not asked, or it let the errand go on. -/
def Allowed (verdicts : List (Except Failure Bool)) : Prop :=
  match e.window? settings.cooldowns with
  | none => verdicts = []
  | some _ => ∃ marked, verdicts = [marked] ∧ Cooldown.allows marked = true

/-- What a lookup of the devices can come to within its limit. -/
def Answers (answer : Except Failure (List DeviceToken)) : Prop :=
  ∃ w, worlds w ∧ answer = ((w.devices e.user).within settings.limit lookupName).answer

/-- The record of an errand of which all messages were answered. -/
def Served (r : Record) : Prop :=
  ∃ verdicts tokens replies, Allowed settings e verdicts ∧ Answers settings worlds e (.ok tokens) ∧
    replies.Perm tokens.zipIdx ∧
    r = { verdicts, answers := [.ok tokens], attempts := tokens.zipIdx, replies }

/-- The record of an errand at a stage. -/
def Fits (r : Record) : Stage → Prop
  | .fresh => r = {}
  | .checking window _ => r = {} ∧ e.window? settings.cooldowns = some window
  | .lookingUp call => ∃ verdicts, Allowed settings e verdicts ∧
      Answers settings worlds e call.answer ∧ r = { verdicts }
  | .sending sends => ∃ verdicts tokens replies, Allowed settings e verdicts ∧
      Answers settings worlds e (.ok tokens) ∧ sends.map (·.1) = tokens ∧
      replies.Perm (Send.landed 0 sends) ∧
      r = { verdicts, answers := [.ok tokens], attempts := tokens.zipIdx, replies }
  | .recording _ _ | .storing _ _ => Served settings worlds e r

/-- The record of an errand that is over. -/
inductive Over : Record → Prop
  | suppressed {window : Cooldown.Window} {marked : Except Failure Bool} :
    e.window? settings.cooldowns = some window → Cooldown.allows marked = false →
    Over { verdicts := [marked], endings := [e] }
  | failed {verdicts : List (Except Failure Bool)} {cause : Failure} :
    Allowed settings e verdicts → Answers settings worlds e (.error cause) →
    Over { verdicts, answers := [.error cause], endings := [e] }
  | served {r : Record} : Served settings worlds e r → Over (r ++ { endings := [e] })

/-- The record of an errand at a stage, or of one that is over. -/
def Course (r : Record) : Option Stage → Prop
  | some stage => Fits settings worlds e r stage
  | none => Over settings worlds e r

/-- An errand comes to another stage or to its end, and what is written down is about it. -/
def Leads (r : Record) (s : Scene) (out : Option Stage × Scene) : Prop :=
  ∃ new, out.2.log = new ++ s.log ∧ Only e new ∧
    Course settings worlds e (r ++ Record.of e.key new) out.1

variable {settings worlds e} {r : Record} {s : Scene} {w : World} {stage : Stage}

theorem Leads.note {h : Happening} {out : Option Stage × Scene}
    (hh : ∀ e', h.errand? = some e' → e' = e)
    (l : Leads settings worlds e (r ++ Record.of e.key [h]) (s.note h) out) :
    Leads settings worlds e r s out := by
  obtain ⟨new, hl, ho, hc⟩ := l
  refine ⟨new ++ [h], by simp [hl, Scene.note], ho.append (.single hh), ?_⟩
  rw [Record.of_append, ← Record.append_assoc]
  exact hc

/-- A stage begins with a call. -/
theorem Leads.call {c : Call} (hf : Fits settings worlds e r stage) :
    Leads settings worlds e r s (some stage, s.note (.called c)) :=
  ⟨[.called c], rfl, .single (fun _ h => by cases h), by simpa [Course] using hf⟩

theorem Leads.conclude (ho : Over settings worlds e (r ++ { endings := [e] })) :
    Leads settings worlds e r s (conclude e s) :=
  ⟨[.ended e], rfl, .single fun _ h => (Option.some.inj h).symm, by rw [Record.of_ended]; exact ho⟩

theorem Leads.lookUp (hw : worlds w) {verdicts : List (Except Failure Bool)}
    (ha : Allowed settings e verdicts) :
    Leads settings worlds e { verdicts } s (lookUp settings w e s) :=
  .call ⟨verdicts, ha, ⟨w, hw, rfl⟩, rfl⟩

theorem Leads.store (hs : Served settings worlds e r) :
    Leads settings worlds e r s (store settings w e s) := by
  unfold Delivery.store
  split
  · exact .call hs
  · exact .conclude (.served hs)

theorem Leads.record (hs : Served settings worlds e r) :
    Leads settings worlds e r s (record settings w e s) := by
  unfold Delivery.record
  split
  · exact .store hs
  · exact .call hs

/-- The cache changes, which no record shows. -/
theorem Leads.write {out : Option Stage × Scene} {f : Cache → Cache}
    (l : Leads settings worlds e r (s.write f) out) : Leads settings worlds e r s out := l

theorem endings_of_fits (h : Fits settings worlds e r stage) : r.endings = [] := by
  cases stage with
  | fresh => cases h; rfl
  | checking => obtain ⟨rfl, -⟩ := h; rfl
  | lookingUp => obtain ⟨_, _, _, rfl⟩ := h; rfl
  | sending => obtain ⟨_, _, _, _, _, _, _, rfl⟩ := h; rfl
  | recording | storing => obtain ⟨_, _, _, _, _, _, rfl⟩ := h; rfl

theorem endings_of_over (h : Over settings worlds e r) : r.endings = [e] := by
  cases h with
  | suppressed | failed => rfl
  | served hs => obtain ⟨_, _, _, _, _, _, rfl⟩ := hs; rfl

/-- The end of an errand is written down when no stage is left. -/
theorem Leads.ended {out : Option Stage × Scene} (l : Leads settings worlds e r s out)
    (h : r.endings = []) :
    pick Happening.ended? out.2.log =
      pick Happening.ended? s.log ++ if out.1.isNone then [e] else [] := by
  obtain ⟨new, hl, ho, hc⟩ := l
  have he : (r ++ Record.of e.key new).endings = pick Happening.ended? new := by
    rw [Record.append_def, h, ho.endings]; rfl
  rw [hl, pick_append, ← he]
  cases hout : out.1 with
  | none => rw [hout] at hc; rw [endings_of_over hc]; rfl
  | some stage => rw [hout] at hc; rw [endings_of_fits hc]; rfl

theorem Leads.check (hw : worlds w) : Leads settings worlds e {} s (check settings w e s) := by
  unfold Delivery.check
  split
  · next hn => exact .lookUp hw (by unfold Allowed; rw [hn])
  · next window hn => exact .call ⟨rfl, hn⟩

/-- The cache has been asked about a cooldown. -/
theorem Leads.checking (hw : worlds w) {window : Cooldown.Window} {call : Pending Failure Unit}
    (hn : e.window? settings.cooldowns = some window) :
    Leads settings worlds e {} s (proceed settings w e s (.checking window call)) := by
  refine .note (h := .checked e (call.answer.map fun _ => s.clock.cache.isMarked s.now window.key))
    (fun _ h => (Option.some.inj h).symm) ?_
  rw [Record.of_checked, Record.empty_append]
  simp only [proceed]
  split
  · next hm => exact .lookUp hw (by unfold Allowed; rw [hn]; exact ⟨_, rfl, hm⟩)
  · next hm => exact .conclude (.suppressed hn (Bool.eq_false_iff.2 hm))

/-- The devices have been looked up. -/
theorem Leads.lookingUp {verdicts : List (Except Failure Bool)}
    {call : Pending Failure (List DeviceToken)} (ha : Allowed settings e verdicts)
    (hans : Answers settings worlds e call.answer) :
    Leads settings worlds e { verdicts } s (proceed settings w e s (.lookingUp call)) := by
  refine .note (h := .found e call.answer) (fun _ h => (Option.some.inj h).symm) ?_
  rw [Record.of_found]
  simp only [proceed]
  split
  · next cause hc =>
    rw [hc] at hans ⊢
    exact .conclude (by simpa [Record.append_def] using Over.failed ha hans)
  · next tokens hc =>
    rw [hc] at hans ⊢
    obtain ⟨ht, new, replies, hl, ho, hrec, hp⟩ := Send.log_beginAll settings w e 0 tokens
      (s.note (.found e (.ok tokens)))
    exact ⟨new, hl, ho, verdicts, tokens, replies, ha, hans, ht, hp,
      by simp [hrec, Record.append_def]⟩

/-- Sends go on, or all of them have ended. -/
theorem Leads.sending {sends : List (DeviceToken × Send)}
    (hf : Fits settings worlds e r (.sending sends)) :
    Leads settings worlds e r s (proceed settings w e s (.sending sends)) := by
  obtain ⟨verdicts, tokens, replies, ha, hans, ht, hp, rfl⟩ := hf
  simp only [proceed]
  split
  · next hall =>
    rw [Send.landed_of_ended hall, ht] at hp
    exact .record ⟨verdicts, tokens, replies, ha, hans, hp, rfl⟩
  · obtain ⟨ht', new, replies', hl, ho, hrec, hp'⟩ := Send.log_proceedAll e 0 sends s
    refine ⟨new, hl, ho, verdicts, tokens, replies ++ replies', ha, hans, ht'.trans ht,
      (hp.append_right _).trans hp', ?_⟩
    simp [hrec, Record.append_def]

/-- A turn leads to a record that fits the next stage. -/
theorem proceed_leads (hw : worlds w) (hf : Fits settings worlds e r stage) :
    Leads settings worlds e r s (proceed settings w e s stage) := by
  cases stage with
  | fresh => cases hf; exact .check hw
  | checking window call =>
    obtain ⟨rfl, hn⟩ := hf
    exact .checking hw hn
  | lookingUp call =>
    obtain ⟨verdicts, ha, hans, rfl⟩ := hf
    exact .lookingUp ha hans
  | sending sends => exact .sending hf
  | recording window call =>
    simp only [proceed]
    split
    · exact .write (.store hf)
    · exact .store hf
  | storing entry call =>
    simp only [proceed]
    split
    · exact .write (.conclude (.served hf))
    · exact .conclude (.served hf)

end Herald.Delivery
