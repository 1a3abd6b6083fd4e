import Herald.Proofs.Delivery.Plain
import Herald.Proofs.Pipeline.Rest
import Herald.Proofs.Pipeline.Secrecy

/-!
# Messages that come to nothing

A message that comes to nothing adds no job to the pool, and nothing is done for it. The lookups for a
message change nothing but what is known of it.

* `State.Run.outcome_malformed`: what is no event, and nothing else, counts as malformed.
* `State.Run.unserved`: what is not dispatched is never delivered.
* `State.arrive_keeps`: what a message that comes in leaves as it is.
-/

namespace Herald.Pipeline

variable {settings : Settings} {w : World} {s t : State} {m : Move} {acts : List (World × Move)}
  {size capacity sinkCapacity : Nat} {e : Event}

/-! ## Outcomes -/

/-- The message has become a job. -/
def Outcome.isDispatched : Outcome → Bool
  | dispatched _ => true
  | _ => false

/-- A message has come to nothing. -/
def State.isFutile (s : State) (number : Nat) : Bool := (s.outcome? number).any (!·.isDispatched)

/-- An event from which no job is prepared does not count as malformed, and has not become a job. -/
theorem prepare_eq_error {outcome : Outcome} (h : (prepare settings w e).value = .error outcome) :
    outcome ≠ .malformed ∧ outcome.isDispatched = false := by
  have hv : (prepare settings w e).value = jobOf
      ((Registry.standard w.directories settings.delivery.limit).build e).run.value
      ((resolver settings w).resolve e).run.value := rfl
  rw [hv] at h
  unfold jobOf at h
  split at h
  · cases h; exact ⟨by simp, rfl⟩
  · cases h; exact ⟨by simp, rfl⟩
  · split at h <;> cases h
    exact ⟨by simp, rfl⟩

namespace State.Run

/-- A message counts as malformed if and only if it is no event. -/
theorem outcome_malformed (run : State.Run settings (.create size capacity sinkCapacity) acts s)
    {number : Nat} (hm : (messages acts)[number]? = some (w, m)) :
    s.outcome? number = some .malformed ↔ m.event? = none := by
  obtain ⟨moves, p⟩ := run.provenance
  have hx := run.explained
  have horigin {result : Except Outcome Delivery.Job} (h : Origin settings acts number result) :
      ∃ e, m.event? = some e ∧ (prepare settings w e).value = result := by
    obtain ⟨w', m', e, hm', he, hr⟩ := h
    cases hm.symm.trans hm'
    exact ⟨e, he, hr⟩
  constructor
  · intro ho
    rcases State.outcome_cases ho with hf | ⟨o, -, -, h⟩ | ⟨o, -, -, h⟩
    · rcases hx _ hf with h | ⟨-, w', m', hm', he⟩
      · obtain ⟨e, -, hr⟩ := horigin h
        exact absurd rfl (prepare_eq_error hr).1
      · cases hm.symm.trans hm'
        exact he
    · cases h
    · cases h
  · intro he
    have hno {result : Except Outcome Delivery.Job} (h : Origin settings acts number result) : False := by
      obtain ⟨e, he', -⟩ := horigin h
      rw [he] at he'
      cases he'
    cases ho : s.outcome? number with
    | none =>
      rcases p.drafted_or_submitted hm ho with ⟨d, hd, rfl⟩ | ⟨o, hs, rfl⟩
      · exact (hno (p.drafts d hd)).elim
      · exact (hno (p.orders o hs)).elim
    | some outcome =>
      rcases p.failed_or_submitted ho with hf | ⟨o, hs, rfl⟩
      · rcases hx _ hf with h | ⟨h, -⟩
        · exact (hno h).elim
        · exact congrArg some h
      · exact (hno (p.orders o hs)).elim

/-- No job of a message that was not dispatched is accepted, and nothing is done for it. -/
theorem unserved (run : State.Run settings (.create size capacity sinkCapacity) acts s) {number : Nat}
    {outcome : Outcome} (h : s.outcome? number = some outcome) (hd : outcome.isDispatched = false) :
    (∀ o ∈ s.pool.accepted, o.number ≠ number) ∧
    ∀ x ∈ s.delivery.log, ∀ e, x.errand? = some e → e.job ≠ number := by
  obtain ⟨moves, p⟩ := run.provenance
  have d := run.deliveries
  have haccepted : ∀ o ∈ s.pool.accepted, o.number ≠ number := by
    rintro o ho rfl
    rw [p.outcome_of_accepted ho] at h
    cases h
    cases hd
  refine ⟨haccepted, fun x hx e he => ?_⟩
  obtain ⟨order, ho, hmem⟩ := p.order_of_errand (d.books.known x hx e he)
  rw [(Delivery.Job.mem_errands.1 hmem).1]
  exact haccepted order ho

end State.Run

/-! ## Preparations -/

/-- The lookups for messages take no time. -/
structure World.Prompt (w : World) : Prop where
  users : ∀ position user, (w.directories.users position user).delay = 0
  rooms : ∀ id, (w.directories.rooms id).delay = 0
  settings : ∀ position user, (w.audience.user position user).delay = 0
  followers : ∀ user, (w.audience.followers user).delay = 0
  activeUsers : ∀ limit, (w.audience.activeUsers limit).delay = 0

/-- A preparation takes over from its lookups. -/
theorem hereditary_prepare {Q : {α : Type} → Timed α → Prop} (q : Timed.Hereditary Q)
    (hb : Q ((Registry.standard w.directories settings.delivery.limit).build e).run)
    (hr : Q ((resolver settings w).resolve e).run) : Q (prepare settings w e) :=
  q.bind (q.both hb hr) fun _ => q.pure _

theorem World.Prompt.elapsed (h : w.Prompt) : (prepare settings w e).elapsed = 0 :=
  hereditary_prepare Timed.hereditary_instant
    (Registry.hereditary_build Timed.hereditary_instant
      (fun _ _ => Timed.instant_call (h.users _ _)) fun _ _ _ => Timed.instant_call (h.rooms _))
    (Resolver.hereditary_resolve Timed.hereditary_instant
      (fun _ _ => Timed.instant_call (h.settings _ _))
      (fun _ => Timed.instant_call (h.followers _)) (Timed.instant_call (h.activeUsers _)))

/-- What is asked for a message is not asked in deliveries. -/
theorem preparatory_prepare : (prepare settings w e).CallsOnly (·.isPreparatory = true) :=
  hereditary_prepare (Timed.hereditary_callsOnly _)
    (Registry.callsOnly_build (fun _ => rfl) fun _ _ _ => rfl)
    (Resolver.callsOnly_resolve (fun _ => rfl) (fun _ => rfl) fun _ => rfl)

theorem plain_calls {calls : List Call} (h : ∀ c ∈ calls, c.isPreparatory = true) :
    (calls.map Delivery.Happening.called).reverse.filterMap (·.plain?) = [] := by
  refine List.filterMap_eq_nil_iff.2 fun x hx => ?_
  obtain ⟨c, hc, rfl⟩ := List.mem_map.1 (List.mem_reverse.1 hx)
  exact if_pos (h c hc)

/-- A message that comes in changes nothing but what is known of messages; it is looked up, unless it is
malformed. -/
theorem State.arrive_keeps (settings : Settings) (w : World) (s : State) (payload : List UInt8) :
    (s.arrive settings w payload).pool = s.pool ∧
    (s.arrive settings w payload).delivery.clock = s.delivery.clock ∧
    (s.arrive settings w payload).delivery.workers = s.delivery.workers ∧
    ∃ calls, (s.arrive settings w payload).delivery.log =
        (calls.map .called).reverse ++ s.delivery.log ∧
      (∀ c ∈ calls, c.isPreparatory = true) ∧ (Event.decode? payload = none → calls = []) := by
  unfold State.arrive
  split
  · next e he => exact ⟨rfl, rfl, rfl, _, rfl, preparatory_prepare, fun hn => by rw [he] at hn; cases hn⟩
  · exact ⟨rfl, rfl, rfl, [], rfl, fun _ h => (nomatch h), fun _ => rfl⟩

end Herald.Pipeline
