import Herald.Proofs.Delivery.Ledger
import Herald.Proofs.Delivery.Progress
import Mathlib.Data.List.Nodup

/-!
# Which messages are sent

A job sends one message to each device of each of its recipients, unless the recipient's cooldown
suppresses it or the lookup of the devices fails. What becomes of one message, or of one recipient,
makes no difference to the messages of another.

* `attempts_exact`: the messages of each recipient of a job, at every moment and in the end.
-/

namespace Herald.Delivery

open Happening

variable {settings : Settings} {worlds : World → Prop} {e : Errand} {r : Record} {s t : State}
  {acts : List Act}

/-! ## What a record says in the end -/

/-- The messages that an answer to a lookup calls for: one to each device, as often as it is
listed. -/
def listed : List (Except Failure (List DeviceToken)) → List (DeviceToken × Nat)
  | [.ok tokens] => tokens.zipIdx
  | _ => []

/-- The cache knew of a cooldown, and nothing was looked up. -/
def Suppressed (settings : Settings) (e : Errand) (r : Record) : Prop :=
  ∃ window marked, e.window? settings.cooldowns = some window ∧ r.verdicts = [marked] ∧
    Cooldown.allows marked = false ∧ r.answers = []

/-- The errand was let go on, and the lookup came to an answer. -/
def LookedUp (settings : Settings) (worlds : World → Prop) (e : Errand) (r : Record) : Prop :=
  ∃ answer, r.answers = [answer] ∧ Allowed settings e r.verdicts ∧ Answers settings worlds e answer

/-- The record of an errand, wherever it is. -/
structure Sound (settings : Settings) (worlds : World → Prop) (e : Errand) (r : Record) : Prop where
  attempts : r.attempts = listed r.answers
  answers : r.answers = [] ∨ LookedUp settings worlds e r
  endings : r.endings = [] ∨ r.endings = [e] ∧ r.replies.Perm r.attempts ∧
    (Suppressed settings e r ∨ LookedUp settings worlds e r)
  verdicts : e.window? settings.cooldowns = none → r.verdicts = []

/-- Without a cooldown the cache is not asked. -/
theorem Allowed.unasked {verdicts : List (Except Failure Bool)} (h : Allowed settings e verdicts)
    (hw : e.window? settings.cooldowns = none) : verdicts = [] := by
  unfold Allowed at h
  rwa [hw] at h

theorem Fits.sound {stage : Stage} (h : Fits settings worlds e r stage) :
    Sound settings worlds e r := by
  have he := endings_of_fits h
  cases stage with
  | fresh => cases h; exact ⟨rfl, .inl rfl, .inl rfl, fun _ => rfl⟩
  | checking => obtain ⟨rfl, -⟩ := h; exact ⟨rfl, .inl rfl, .inl rfl, fun _ => rfl⟩
  | lookingUp => obtain ⟨_, ha, _, rfl⟩ := h; exact ⟨rfl, .inl rfl, .inl rfl, ha.unasked⟩
  | sending =>
    obtain ⟨_, _, _, ha, hans, _, _, rfl⟩ := h
    exact ⟨rfl, .inr ⟨_, rfl, ha, hans⟩, .inl he, ha.unasked⟩
  | recording | storing =>
    obtain ⟨_, _, _, ha, hans, _, rfl⟩ := h
    exact ⟨rfl, .inr ⟨_, rfl, ha, hans⟩, .inl he, ha.unasked⟩

theorem Over.sound (h : Over settings worlds e r) : Sound settings worlds e r := by
  cases h with
  | @suppressed window marked hw hm =>
    exact ⟨rfl, .inl rfl, .inr ⟨rfl, .nil, .inl ⟨window, marked, hw, rfl, hm, rfl⟩⟩,
      fun hn => nomatch hn.symm.trans hw⟩
  | failed ha hans =>
    exact ⟨rfl, .inr ⟨_, rfl, ha, hans⟩, .inr ⟨rfl, .nil, .inr ⟨_, rfl, ha, hans⟩⟩, ha.unasked⟩
  | served hs =>
    obtain ⟨verdicts, tokens, replies, ha, hans, hp, rfl⟩ := hs
    have hr : Record.mk verdicts [.ok tokens] tokens.zipIdx replies [] ++ { endings := [e] } =
        { verdicts, answers := [.ok tokens], attempts := tokens.zipIdx, replies, endings := [e] } := by
      simp [Record.append_def]
    rw [hr]
    exact ⟨rfl, .inr ⟨_, rfl, ha, hans⟩, .inr ⟨rfl, hp, .inr ⟨_, rfl, ha, hans⟩⟩, ha.unasked⟩

theorem Books.sound {assigned waiting : List Errand} {flights : List Flight} {log : List Happening}
    (b : Books settings worlds assigned waiting flights log) (he : e ∈ assigned) :
    Sound settings worlds e (Record.of e.key log) := by
  have hm := b.placed.mem_iff.2 he
  simp only [List.mem_append, List.mem_map] at hm
  rcases hm with (hw | ⟨f, hf, rfl⟩) | ho
  · rw [b.fresh e hw]; exact ⟨rfl, .inl rfl, .inl rfl, fun _ => rfl⟩
  · exact (b.fits f hf).sound
  · exact (b.past e ho).sound

theorem mem_verdicts {log : List Happening} {marked : Except Failure Bool}
    (h : .checked e marked ∈ log) : marked ∈ (Record.of e.key log).verdicts := by
  refine mem_pick.2 ⟨_, h, ?_⟩
  simp [Happening.about, Happening.errand?, Happening.verdict?]

theorem mem_errandsOf_assigned {worker : Nat} {job : Job} {number : Nat}
    (ha : .assign worker job number ∈ acts) (he : e ∈ job.errands number) :
    e ∈ errandsOf (pick Act.job? acts) :=
  List.mem_flatMap.2 ⟨_, mem_pick.2 ⟨_, ha, rfl⟩, he⟩

/-! ## Messages -/

theorem State.New.queued (h : s.New) : s.Queued := by
  intro k hk
  obtain ⟨hw, hr⟩ := h.sinks k hk
  have ht : k.tickets = [] := by
    have hf := List.flatMap_eq_nil_iff.1 h.flights k hk
    simp [Worker.tickets, hf]
  exact ⟨by simp [ht, hw], by simp [hw], fun p hp => absurd hp (by simp [hw]), hr⟩

theorem State.Run.queued (run : State.Run settings s acts t) (h : s.New) : t.Queued :=
  Trace.keeps (P := fun _ t => t.Queued) run h.queued fun _ _ _ _ q e => q.act e

/-- The messages that are sent for a recipient of a job, at every moment of a run and in the end.
Jobs are told apart by the numbers that they were given.

What is written down for the recipient is written down with the notification of the job. If the
lookup of the devices has come to a list, there is one message to each device of it, as often as it
is listed; in all other cases there is none. A lookup is made if the cache lets the errand go on,
and what it comes to is what was replied within the limit.

An errand ends once, when all its messages were answered and when it was suppressed or its lookup
has come to an answer. A worker that has no job any more has brought all its errands to that end,
and every worker comes to have none, however things go on.

So the messages depend on the answer to the lookup alone: in any other run with the same answer
they are the same. -/
theorem attempts_exact (run : State.Run settings s acts t) (fresh : s.New)
    (distinct : ((pick Act.job? acts).map (·.1)).Nodup) {worker number position : Nat} {job : Job}
    {target : Recipient} (assigned : .assign worker job number ∈ acts)
    (listing : job.targets[position]? = some target) :
    let e : Errand := ⟨number, position, target, job.notification⟩
    let r := Record.of e.key t.log
    (∀ h ∈ t.log, ∀ e', h.errand? = some e' → e'.key = e.key → e' = e) ∧
    Sound settings (fun w => ∃ a ∈ acts, a.world? = some w) e r ∧
    (∀ k, t.workers[worker]? = some k → k.isBusy = false → r.endings = [e]) ∧
    t.Ends settings ∧
    ∀ settings' s' acts' t', State.Run settings' s' acts' t' → s'.New →
      ((pick Act.job? acts').map (·.1)).Nodup → (∃ worker', .assign worker' job number ∈ acts') →
      (Record.of e.key t'.log).answers = r.answers →
      (Record.of e.key t'.log).attempts = r.attempts := by
  intro e r
  have he : e ∈ job.errands number := Job.mem_errands.2 ⟨rfl, rfl, listing⟩
  have hm := mem_errandsOf_assigned assigned he
  have hn := nodup_keys distinct
  have b := run.books (fun w => ∃ a ∈ acts, a.world? = some w) fresh
    (fun a ha w hw => ⟨a, ha, hw⟩) hn
  have hs := b.sound hm
  refine ⟨?_, hs, ?_, State.ends (run.queued fresh), ?_⟩
  · intro h hh e' he' hk
    exact List.inj_on_of_nodup_map hn (b.known h hh e' he') hm hk
  · intro k hk hb
    have ho := (run.home fresh hn worker job number assigned e he).past hk hb
    exact endings_of_over (b.past e ho)
  · rintro settings' s' acts' t' run' fresh' distinct' ⟨worker', assigned'⟩ ha
    have b' := run'.books (fun _ => True) fresh' (fun _ _ _ _ => trivial)
      (nodup_keys distinct')
    rw [(b'.sound (mem_errandsOf_assigned assigned' he)).attempts, hs.attempts, ha]

/-- Two users with devices. The first one's device is dead, and the second one's lookup overruns. -/
def twoUsers : World where
  devices user := if user = 1 then ⟨0, .ok ["a", "b"]⟩ else ⟨20, .ok ["c"]⟩
  gateway index _ := ⟨3, if index = 0 then .error .unregistered else .ok ()⟩
  cache := .now ()
  removal := .now ()
  time := 0

/-- A worker serves two users, one after the other. Latest first. -/
def twoErrands : List Act :=
  [.move twoUsers 0 (.turn 0), .pass 13, .move twoUsers 0 (.turn 0), .move twoUsers 0 .start,
    .move twoUsers 0 (.turn 0), .move twoUsers 0 (.turn 0), .pass 3, .move twoUsers 0 (.turn 0),
    .move twoUsers 0 (.turn 0), .move twoUsers 0 .start,
    .assign 0 ⟨[.withDefaults 1, .withDefaults 2], ⟨.newRoom, ⟨"", []⟩, ∅, none, none⟩⟩ 7]

theorem attempts_exact_twoErrands :
    ∃ t, State.Run ⟨⟨0, 0⟩, .ofMillis 10, 1, 5⟩ ⟨{}, [{ sink := .create 1 }], []⟩ twoErrands t ∧
      (Record.of (7, 0) t.log).attempts = [("a", 0), ("b", 1)] ∧
      (Record.of (7, 1) t.log).attempts = [] ∧ (Record.of (7, 1) t.log).endings.length = 1 := by
  obtain ⟨t, ht⟩ : ∃ t, play (State.act ⟨⟨0, 0⟩, .ofMillis 10, 1, 5⟩)
      ⟨{}, [{ sink := .create 1 }], []⟩ twoErrands = some t := ⟨_, rfl⟩
  have hnew : State.New ⟨{}, [{ sink := .create 1 }], []⟩ :=
    ⟨rfl, rfl, by simp [Cleanup.Sink.create, Channel.create]⟩
  have h0 := attempts_exact (trace_iff.2 ht) hnew (by simp [twoErrands, Act.job?])
    (List.mem_of_getLast? rfl)
    (show [Recipient.withDefaults 1, .withDefaults 2][0]? = some (.withDefaults 1) from rfl)
  have h1 := attempts_exact (trace_iff.2 ht) hnew (by simp [twoErrands, Act.job?])
    (List.mem_of_getLast? rfl)
    (show [Recipient.withDefaults 1, .withDefaults 2][1]? = some (.withDefaults 2) from rfl)
  have ha0 : (Record.of (7, 0) t.log).answers = [.ok ["a", "b"]] := by cases ht; rfl
  obtain ⟨cause, ha1⟩ : ∃ cause, (Record.of (7, 1) t.log).answers = [.error cause] := by
    cases ht; exact ⟨_, rfl⟩
  obtain ⟨k, hk, hb⟩ : ∃ k, t.workers[0]? = some k ∧ k.isBusy = false := by
    cases ht; exact ⟨_, rfl, rfl⟩
  refine ⟨t, trace_iff.2 ht, h0.2.1.attempts.trans ?_, h1.2.1.attempts.trans ?_, ?_⟩
  · show listed (Record.of (7, 0) t.log).answers = _
    rw [ha0]; rfl
  · show listed (Record.of (7, 1) t.log).answers = _
    rw [ha1]; rfl
  · exact congrArg List.length (h1.2.2.1 k hk hb)

end Herald.Delivery
