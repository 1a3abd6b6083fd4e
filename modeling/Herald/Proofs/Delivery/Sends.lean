import Herald.Proofs.Delivery.Record

/-!
# What sends write down

Each message is written down once, and each answer to it once, whatever becomes of the other
messages of the errand.

* `Send.log_proceedAll`, `Send.log_beginAll`: what is written down when sends go on or begin.
* `Send.pick_proceedAll`, `Send.pick_beginAll`: nothing else is.
-/

namespace Herald.Delivery.Send

/-- The message has not been answered. -/
def isFlying : Send → Bool
  | flying _ => true
  | _ => false

/-- The devices whose messages have been answered; `index` is the position of the first one. -/
def landed (index : Nat) : List (DeviceToken × Send) → List (DeviceToken × Nat)
  | [] => []
  | (token, send) :: rest =>
    (if send.isFlying then [] else [(token, index)]) ++ landed (index + 1) rest

variable {e : Errand} {index : Nat} {token : DeviceToken} {s : Scene} {send : Send}

theorem landed_of_ended {sends : List (DeviceToken × Send)} (h : sends.all (·.2.isEnded) = true) :
    landed index sends = (sends.map (·.1)).zipIdx index := by
  induction sends generalizing index with
  | nil => rfl
  | cons p sends ih =>
    obtain ⟨token, send⟩ := p
    obtain ⟨hs, ht⟩ := Bool.and_eq_true_iff.1 (List.all_cons ▸ h)
    have hf : send.isFlying = false := by cases send <;> first | rfl | cases hs
    simp [landed, hf, ih ht, List.zipIdx_cons]

@[simp] theorem log_park : (park token s).2.log = s.log := by
  unfold park; split <;> rfl

@[simp] theorem isFlying_park : (park token s).1.isFlying = false := by
  unfold park; split <;> rfl

/-- A send that goes on is answered, or it only comes closer to its end. -/
theorem log_proceed (e : Errand) (index : Nat) (token : DeviceToken) (s : Scene) (send : Send) :
    (send.proceed e index token s).2.log = s.log ∧
      (send.proceed e index token s).1.isFlying = send.isFlying ∨
    ∃ answer, (send.proceed e index token s).2.log = .answered e index token answer :: s.log ∧
      send.isFlying = true ∧ (send.proceed e index token s).1.isFlying = false := by
  cases send with
  | flying call =>
    simp only [proceed]
    split
    · refine .inr ⟨call.answer, ?_, rfl, ?_⟩ <;> split
      · rw [log_park]; rfl
      · rfl
      · exact isFlying_park
      · rfl
    · exact .inl ⟨rfl, rfl⟩
  | parked ticket =>
    simp only [proceed]
    split <;> exact .inl ⟨rfl, rfl⟩
  | ended => exact .inl ⟨rfl, rfl⟩

/-- Nothing but answers is written down when sends go on. -/
theorem pick_proceed {α : Type} {f : Happening → Option α}
    (hf : ∀ index token answer, f (.answered e index token answer) = none) :
    pick f (send.proceed e index token s).2.log = pick f s.log := by
  rcases log_proceed e index token s send with ⟨hl, -⟩ | ⟨answer, hl, -⟩ <;> rw [hl]
  rw [pick_cons, hf, Option.toList_none, List.append_nil]

theorem pick_proceedAll {α : Type} {f : Happening → Option α}
    (hf : ∀ index token answer, f (.answered e index token answer) = none)
    (index : Nat) (sends : List (DeviceToken × Send)) (s : Scene) :
    pick f (proceedAll e index sends s).2.log = pick f s.log := by
  induction sends generalizing index s with
  | nil => rfl
  | cons p sends ih => exact (ih ..).trans (pick_proceed hf)

/-- Nothing but messages and answers is written down when sends begin. -/
theorem pick_beginAll {α : Type} {f : Happening → Option α}
    (hf : ∀ index token answer, f (.answered e index token answer) = none)
    (hs : ∀ index token, f (.sent e index token) = none)
    (settings : Settings) (w : World) (index : Nat) (tokens : List DeviceToken) (s : Scene) :
    pick f (beginAll settings w e index tokens s).2.log = pick f s.log := by
  induction tokens generalizing index s with
  | nil => rfl
  | cons token tokens ih =>
    refine (ih ..).trans ((pick_proceed hf).trans ?_)
    show pick f (.sent e index token :: s.log) = _
    rw [pick_cons, hs, Option.toList_none, List.append_nil]

/-- One send after another goes on: some messages are answered, and the record says which. -/
theorem log_proceedAll (e : Errand) (index : Nat) (sends : List (DeviceToken × Send)) (s : Scene) :
    (proceedAll e index sends s).1.map (·.1) = sends.map (·.1) ∧
    ∃ new replies, (proceedAll e index sends s).2.log = new ++ s.log ∧ Only e new ∧
      Record.of e.key new = { replies } ∧
      (landed index sends ++ replies).Perm (landed index (proceedAll e index sends s).1) := by
  induction sends generalizing index s with
  | nil => exact ⟨rfl, [], [], rfl, .nil, rfl, .nil⟩
  | cons p sends ih =>
    obtain ⟨token, send⟩ := p
    have hc := log_proceed e index token s send
    generalize hr : send.proceed e index token s = r at hc
    have hn : proceedAll e index ((token, send) :: sends) s =
        ((token, r.1) :: (proceedAll e (index + 1) sends r.2).1,
          (proceedAll e (index + 1) sends r.2).2) := by rw [← hr]; rfl
    obtain ⟨ht, new, replies, hl, ho, hrec, hp⟩ := ih (index + 1) r.2
    rw [hn]
    refine ⟨congrArg (token :: ·) ht, ?_⟩
    rcases hc with ⟨hs, hf⟩ | ⟨answer, hs, hf, hf'⟩
    · refine ⟨new, replies, hs ▸ hl, ho, hrec, ?_⟩
      simp only [landed, hf, List.append_assoc]
      exact hp.append_left _
    · refine ⟨new ++ [.answered e index token answer], (token, index) :: replies, ?_, ?_, ?_, ?_⟩
      · rw [hl, hs]; simp
      · exact ho.append (.single fun _ he => (Option.some.inj he).symm)
      · rw [Record.of_append, hrec, Record.of_answered]; rfl
      · simp only [landed, hf, hf']
        exact List.perm_middle.trans (hp.cons (token, index))

/-- Messages begin: each one is written down, and some are answered at once. -/
theorem log_beginAll (settings : Settings) (w : World) (e : Errand) (index : Nat)
    (tokens : List DeviceToken) (s : Scene) :
    (beginAll settings w e index tokens s).1.map (·.1) = tokens ∧
    ∃ new replies, (beginAll settings w e index tokens s).2.log = new ++ s.log ∧ Only e new ∧
      Record.of e.key new = { attempts := tokens.zipIdx index, replies } ∧
      replies.Perm (landed index (beginAll settings w e index tokens s).1) := by
  induction tokens generalizing index s with
  | nil => exact ⟨rfl, [], [], rfl, .nil, rfl, .nil⟩
  | cons token tokens ih =>
    have hc := log_proceed e index token (s.note (.sent e index token))
      (flying (.start s.now settings.limit pushName (w.gateway index token)))
    generalize hr : Send.proceed e index token (s.note (.sent e index token))
      (flying (.start s.now settings.limit pushName (w.gateway index token))) = r at hc
    have hn : beginAll settings w e index (token :: tokens) s =
        ((token, r.1) :: (beginAll settings w e (index + 1) tokens r.2).1,
          (beginAll settings w e (index + 1) tokens r.2).2) := by rw [← hr]; rfl
    have hsent : Only e [.sent e index token] := .single fun _ he => (Option.some.inj he).symm
    obtain ⟨ht, new, replies, hl, ho, hrec, hp⟩ := ih (index + 1) r.2
    rw [hn]
    refine ⟨congrArg (token :: ·) ht, ?_⟩
    rcases hc with ⟨hs, hf⟩ | ⟨answer, hs, -, hf⟩
    · refine ⟨new ++ [.sent e index token], replies, ?_, ho.append hsent, ?_, ?_⟩
      · rw [hl, hs]; simp [Scene.note]
      · rw [Record.of_append, hrec, Record.of_sent]; rfl
      · have hf : r.1.isFlying = true := hf
        simpa only [landed, hf, if_true, List.nil_append] using hp
    · have hans : Only e [.answered e index token answer] :=
        .single fun _ he => (Option.some.inj he).symm
      refine ⟨new ++ ([.answered e index token answer] ++ [.sent e index token]),
        (token, index) :: replies, ?_, ho.append (hans.append hsent), ?_, ?_⟩
      · rw [hl, hs]; simp [Scene.note]
      · rw [Record.of_append, Record.of_append, hrec, Record.of_sent, Record.of_answered]; rfl
      · simp only [landed, hf]
        exact hp.cons (token, index)

end Herald.Delivery.Send
