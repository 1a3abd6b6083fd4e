import Herald.Proofs.Delivery.Step
import Mathlib.Data.List.Nodup

/-!
# The queue of a sink

The tokens that wait for a place in the queue of a worker's sink are those of its parked sends, each
with its own ticket. So whoever is called into the queue is there to come in.

* `Queued`: how the tickets of sends agree with the queue; `Queued.step` keeps it.
-/

namespace Herald.Delivery

/-- The tickets are those of what waits outside a channel with room for something. -/
structure Queued (tickets : List Nat) (c : Channel DeviceToken) : Prop where
  perm : tickets.Perm (c.waiting.map (·.1))
  nodup : (c.waiting.map (·.1)).Nodup
  below : ∀ w ∈ c.waiting, w.1 < c.ticket
  room : 0 < c.capacity

namespace Queued

variable {tickets tickets' : List Nat} {c d : Channel DeviceToken} {token : DeviceToken}

theorem of_perm (q : Queued tickets c) (h : tickets.Perm tickets') : Queued tickets' c :=
  ⟨h.symm.trans q.perm, q.nodup, q.below, q.room⟩

theorem send {ticket : Option Nat} (q : Queued tickets c) (h : c.send? token = some (ticket, d)) :
    Queued (ticket.toList ++ tickets) d := by
  have hr : 0 < d.capacity := (Channel.send?_keeps h).1 ▸ q.room
  rcases Channel.send?_cases h with ⟨rfl, -, hw, ht⟩ | ⟨rfl, -, hw, ht⟩
  · exact ⟨hw ▸ q.perm, hw ▸ q.nodup, hw ▸ ht ▸ q.below, hr⟩
  · refine ⟨?_, ?_, ?_, hr⟩
    · simpa [hw] using (q.perm.cons c.ticket).trans (List.perm_append_singleton _ _).symm
    · rw [hw, List.map_append]
      refine List.nodup_append.2 ⟨q.nodup, List.nodup_singleton _, ?_⟩
      intro t ht' u hu
      obtain ⟨w, hm, rfl⟩ := List.mem_map.1 ht'
      rw [List.mem_singleton.1 hu]
      exact Nat.ne_of_lt (q.below w hm)
    · intro w hm
      rw [hw] at hm
      rw [ht]
      rcases List.mem_append.1 hm with hm | hm
      · exact Nat.lt_succ_of_lt (q.below w hm)
      · rw [List.mem_singleton.1 hm]; exact Nat.lt_succ_self _

theorem enter {ticket : Nat} (q : Queued (ticket :: tickets) c)
    (h : c.enter? ticket = some (token, d)) : Queued tickets d := by
  obtain ⟨-, -, before, after, hw, hd, -⟩ := Channel.enter?_cases h
  obtain ⟨hcap, -, ht⟩ := Channel.enter?_keeps h
  have hp := q.perm
  have hn := q.nodup
  rw [hw, List.map_append, List.map_cons] at hp hn
  refine ⟨?_, ?_, ?_, hcap ▸ q.room⟩
  · rw [hd, List.map_append]
    exact (List.perm_cons _).1 (hp.trans List.perm_middle)
  · rw [hd, List.map_append]
    exact (List.nodup_cons.1 (List.perm_middle.nodup_iff.1 hn)).2
  · intro w hm
    rw [ht]
    refine q.below w (hw ▸ ?_)
    rw [hd] at hm
    simp only [List.mem_append, List.mem_cons] at hm ⊢
    tauto

theorem receive (q : Queued tickets c) (h : c.receive? = some (token, d)) : Queued tickets d := by
  obtain ⟨-, hw, ht⟩ := Channel.receive?_cases h
  exact ⟨hw ▸ q.perm, hw ▸ q.nodup, hw ▸ ht ▸ q.below, (Channel.receive?_keeps h).1 ▸ q.room⟩

end Queued

/-! ## Sends -/

namespace Send

/-- The ticket of a send that is parked. -/
def ticket? : Send → Option Nat
  | parked ticket => some ticket
  | _ => none

def tickets (sends : List (DeviceToken × Send)) : List Nat := sends.filterMap (·.2.ticket?)

variable {others : List Nat} {e : Errand} {s : Scene}

@[simp] theorem tickets_cons (token : DeviceToken) (send : Send) (sends : List (DeviceToken × Send)) :
    tickets ((token, send) :: sends) = send.ticket?.toList ++ tickets sends := by
  cases h : send.ticket? <;> simp [tickets, h]

theorem queued_park {token : DeviceToken} (q : Queued others s.queue) :
    Queued ((park token s).1.ticket?.toList ++ others) (park token s).2.queue := by
  unfold park
  split
  · exact q
  · next h => exact q.send h
  · next h => exact q.send h

theorem queued_proceed (e : Errand) (index : Nat) (token : DeviceToken) {send : Send}
    (q : Queued (send.ticket?.toList ++ others) s.queue) :
    Queued ((send.proceed e index token s).1.ticket?.toList ++ others)
      (send.proceed e index token s).2.queue := by
  cases send with
  | flying call =>
    simp only [proceed]
    split
    · split
      · exact queued_park q
      · exact q
    · exact q
  | parked ticket =>
    simp only [proceed]
    split
    · next h => exact q.enter h
    · exact q
  | ended => exact q

theorem queued_proceedAll (index : Nat) {sends : List (DeviceToken × Send)}
    (q : Queued (tickets sends ++ others) s.queue) :
    Queued (tickets (proceedAll e index sends s).1 ++ others)
      (proceedAll e index sends s).2.queue := by
  induction sends generalizing index s others with
  | nil => exact q
  | cons p sends ih =>
    obtain ⟨token, send⟩ := p
    rw [tickets_cons, List.append_assoc] at q
    have q' := queued_proceed e index token q
    have q'' := ih (index + 1) (q'.of_perm (List.perm_append_comm_assoc _ _ _))
    simp only [proceedAll, tickets_cons, List.append_assoc]
    exact q''.of_perm (List.perm_append_comm_assoc _ _ _)

theorem queued_beginAll {settings : Settings} {w : World} (index : Nat) {tokens : List DeviceToken}
    (q : Queued others s.queue) :
    Queued (tickets (beginAll settings w e index tokens s).1 ++ others)
      (beginAll settings w e index tokens s).2.queue := by
  induction tokens generalizing index s others with
  | nil => exact q
  | cons token tokens ih =>
    let send := Send.flying (.start s.now settings.limit pushName (w.gateway index token))
    have q' : Queued (send.ticket?.toList ++ others) (s.note (.sent e index token)).queue := q
    have q'' := ih (index + 1) (queued_proceed e index token q')
    simp only [beginAll, tickets_cons, List.append_assoc]
    exact q''.of_perm (List.perm_append_comm_assoc _ _ _)

end Send

/-! ## Workers -/

/-- The tickets of the sends of a stage. -/
def Stage.tickets : Stage → List Nat
  | sending sends => Send.tickets sends
  | _ => []

def Worker.tickets (k : Worker) : List Nat := k.flights.flatMap (·.stage.tickets)

namespace Queued

variable {settings : Settings} {w : World} {others : List Nat} {e : Errand} {s : Scene}

/-- A turn leads to a scene with these sends parked. -/
def After (others : List Nat) (out : Option Stage × Scene) : Prop :=
  Queued ((out.1.map (·.tickets)).getD [] ++ others) out.2.queue

theorem store (q : Queued others s.queue) : After others (store settings w e s) := by
  unfold Delivery.store
  split <;> exact q

theorem record (q : Queued others s.queue) : After others (record settings w e s) := by
  unfold Delivery.record
  split
  · exact store q
  · exact q

theorem proceed (settings : Settings) (w : World) (e : Errand) {stage : Stage}
    (q : Queued (stage.tickets ++ others) s.queue) :
    After others (proceed settings w e s stage) := by
  cases stage with
  | fresh =>
    show After others (check settings w e s)
    unfold check
    split <;> exact q
  | checking window call =>
    simp only [Delivery.proceed]
    split <;> exact q
  | lookingUp call =>
    simp only [Delivery.proceed]
    split
    · exact q
    · exact Send.queued_beginAll 0 (s := s.note _) q
  | sending sends =>
    simp only [Delivery.proceed]
    split
    · next hall =>
      have hn : Send.tickets sends = [] := List.filterMap_eq_nil_iff.2 fun p hp => by
        have he := List.all_eq_true.1 hall p hp
        cases hs : p.2 with
        | ended => rfl
        | _ => rw [hs] at he; cases he
      rw [Stage.tickets, hn] at q
      exact record q
    · exact Send.queued_proceedAll 0 q
  | recording window call =>
    simp only [Delivery.proceed]
    split
    · exact store (s := s.write _) q
    · exact store q
  | storing entry call =>
    simp only [Delivery.proceed]
    split <;> exact q

/-- A move of a worker keeps its tickets in line with the queue of its sink. -/
theorem step {clock : ClockedCache} {k : Worker} {m : Move}
    {r : Worker × ClockedCache × List Happening} (q : Queued k.tickets k.sink.queue)
    (h : Move.Step settings w clock k m r) : Queued r.1.tickets r.1.sink.queue := by
  cases h with
  | start => exact q.of_perm (by simp [Worker.tickets, Stage.tickets])
  | @turn position f out flights hf hr ho hp =>
    have hk : k.tickets.Perm (f.stage.tickets ++
        (k.flights.eraseIdx position).flatMap (·.stage.tickets)) :=
      ((perm_eraseIdx hf).flatMap_right _).trans (by simp)
    have ha := (q.of_perm hk).proceed settings w f.errand (s := k.scene clock)
    rw [ho] at ha
    refine Queued.of_perm ha (List.Perm.trans ?_ (hp.flatMap_right _).symm)
    cases out.1 <;> simp
  | take h =>
    obtain ⟨-, queue, e, rfl⟩ := Cleanup.Sink.take?_cases h
    exact q.receive e
  | finish h =>
    obtain ⟨p, -, -, rfl⟩ := Cleanup.Sink.finish?_cases h
    exact q

end Queued

end Herald.Delivery
