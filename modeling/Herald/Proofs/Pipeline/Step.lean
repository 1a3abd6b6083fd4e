import Herald.Pipeline
import Herald.Proofs.Delivery.Step
import Herald.Proofs.Pool.Ledger

/-!
# What a move makes of a pipeline

`State.step` says what becomes of a pipeline; `Step` lists the same by cases. Messages come, drafts
become ready, the pool and the delivery workers move and time passes, in any order, and the
collaborators may reply to each call as they like.

* `Step.of_step`: every step is one of the cases.
* `State.Run`: what may happen to a pipeline from a state on.
-/

namespace Herald.Pipeline

variable {settings : Settings} {w : World} {s t : State} {m : Move}

/-! ## Steps -/

/-- The event that comes with a move, if it is a message that holds one. -/
def Move.event? : Move → Option Event
  | .arrive payload => Event.decode? payload
  | .enter e => some e
  | _ => none

/-- The ways in which a move can go. -/
inductive Step (settings : Settings) (w : World) (s : State) : Move → State → Prop
  | enter {m : Move} {e : Event} : m.event? = some e → Step settings w s m (s.enter settings w e)
  | malformed {payload : List UInt8} : Event.decode? payload = none →
    Step settings w s (.arrive payload)
      { s with arrivals := s.arrivals + 1, failures := (s.arrivals, .malformed) :: s.failures }
  | submit {position : Nat} {d : Draft} : s.drafts[position]? = some d → d.due ≤ s.now →
    Step settings w s (.submit position) ({ s with drafts := s.drafts.eraseIdx position }.submit d)
  | stop {pool : Pool.State Order} : s.pool.step .stop = some pool →
    Step settings w s .stop { s with pool }
  | pool {m : Pool.Move Order} {pool : Pool.State Order} : m.isOwn = true →
    s.pool.step m = some pool → pool.started = s.pool.started →
    Step settings w s (.pool m) { s with pool }
  /-- A worker of the pool starts a job, which is given to the delivery worker. -/
  | begin {m : Pool.Move Order} {pool : Pool.State Order} {worker : Nat} {order : Order} :
    m.isOwn = true → s.pool.step m = some pool →
    pool.started = s.pool.started ++ [(worker, order)] → worker < s.pool.workers.length →
    Step settings w s (.pool m)
      { s with pool, delivery := s.delivery.assign worker order.job order.number }
  | finish {worker : Nat} {k : Delivery.Worker} {pool : Pool.State Order} :
    s.delivery.workers[worker]? = some k → k.isBusy = false →
    s.pool.step (.finish worker) = some pool → Step settings w s (.finish worker) { s with pool }
  | deliver {worker : Nat} {m : Delivery.Move} {delivery : Delivery.State} :
    s.delivery.step settings.delivery w.delivery worker m = some delivery →
    Step settings w s (.deliver worker m) { s with delivery }
  | pass {time : Nat} : Step settings w s (.pass time) { s with delivery := s.delivery.pass time }

theorem Step.of_starter {m : Pool.Move Order} {pool : Pool.State Order} {worker : Nat}
    (hs : m.starter? = some worker) (ho : m.isOwn = true) (hp : s.pool.step m = some pool) :
    Step settings w s (.pool m) ({ s with pool }.begin worker) := by
  have hstep := Pool.Step.of_step hp
  unfold State.begin State.order?
  rcases hstep.started with ⟨i, order, hi, hb, hst⟩ | ⟨hstop, hst⟩
  · obtain rfl : worker = i := Option.some.inj (hs.symm.trans hi)
    simp only [hb]
    refine .begin ho hp hst ?_
    exact hstep.length_workers ▸ (List.getElem?_eq_some_iff.1 hb).1
  · simp only [hstop worker hs]
    exact .pool ho hp hst

theorem Step.of_step (h : s.step settings w m = some t) : Step settings w s m t := by
  cases m with
  | arrive payload =>
    simp only [State.step, State.arrive, Option.some.injEq] at h
    split at h
    · next e he => cases h; exact .enter (m := .arrive payload) he
    · next he => cases h; exact .malformed he
  | enter e => cases h; exact .enter rfl
  | submit position =>
    simp only [State.step] at h
    split at h
    · cases h
    · split at h <;> cases h
      exact .submit ‹_› ‹_›
  | stop =>
    obtain ⟨pool, hp, rfl⟩ := Option.map_eq_some_iff.1 h
    exact .stop hp
  | pool m =>
    simp only [State.step] at h
    split at h
    · next ho =>
      split at h
      · cases h
      · next pool hp =>
        split at h
        · cases h; exact .of_starter rfl ho hp
        · cases h; exact .of_starter rfl ho hp
        · next hns hnl =>
          cases h
          rcases (Pool.Step.of_step hp).started with ⟨i, order, hi, -⟩ | ⟨-, hst⟩
          · cases m with
            | start worker => exact absurd rfl (hns worker)
            | look worker => exact absurd rfl (hnl worker)
            | _ => cases hi
          · exact .pool ho hp hst
    · cases h
  | finish worker =>
    simp only [State.step] at h
    split at h
    · cases h
    · next k hk =>
      split at h
      · cases h
      · next hb =>
        obtain ⟨pool, hp, rfl⟩ := Option.map_eq_some_iff.1 h
        exact .finish hk (Bool.eq_false_iff.2 hb) hp
  | deliver worker m =>
    obtain ⟨delivery, hd, rfl⟩ := Option.map_eq_some_iff.1 h
    exact .deliver hd
  | pass time => cases h; exact .pass

/-! ## Runs -/

/-- What becomes of a pipeline by a move; calls that start then are replied to as the world has it. -/
def State.act (settings : Settings) (s : State) (a : World × Move) : Option State :=
  s.step settings a.1 a.2

/-- The pipelines that moves lead to; the moves are given latest first. -/
def State.Run (settings : Settings) (s : State) : List (World × Move) → State → Prop :=
  Trace (State.act settings) s

end Herald.Pipeline
