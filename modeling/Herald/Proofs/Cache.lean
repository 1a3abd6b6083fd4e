import Herald.Cache

/-!
# Calls to the cache

A call takes effect if its reply comes in time and is no failure. A call that does not take effect
leaves the cache as it is.

* `ClockedCache.perform_of_lands`, `ClockedCache.perform_of_not_lands`: what a call makes of the
  cache and of the clock.
-/

namespace Herald

/-- The reply comes in time and is no failure. -/
def Reply.lands {ε α : Type} (limit : Limit) (r : Reply ε α) : Bool :=
  decide (r.delay ≤ limit.expiry) && r.answer.isOk

namespace ClockedCache

variable {α : Type} {s : ClockedCache} {limit : Limit} {operation : String}
  {reply : Reply Failure Unit} {effect : Nat → Cache → α × Cache}

theorem perform_of_lands (h : reply.lands limit = true) :
    s.perform limit operation reply effect =
      (.ok (effect (s.now + reply.delay) s.cache).1,
        ⟨s.now + reply.delay, (effect (s.now + reply.delay) s.cache).2⟩) := by
  obtain ⟨delay, answer⟩ := reply
  obtain ⟨hd, ha⟩ := Bool.and_eq_true_iff.1 h
  cases answer with
  | error cause => cases ha
  | ok a => simp [perform, settle, Reply.within, of_decide_eq_true hd]

theorem perform_of_not_lands (h : reply.lands limit = false) (s : ClockedCache) (operation : String)
    (effect : Nat → Cache → α × Cache) :
    ∃ cause now, s.perform limit operation reply effect = (.error cause, ⟨now, s.cache⟩) := by
  obtain ⟨delay, answer⟩ := reply
  by_cases hd : delay ≤ limit.expiry
  · cases answer with
    | error cause => exact ⟨cause, s.now + delay, by simp [perform, settle, Reply.within, hd]⟩
    | ok a => simp [Reply.lands, hd, Except.isOk, Except.toBool] at h
  · exact ⟨ofFailure (.timedOut operation limit), s.now + limit.expiry,
      by simp [perform, settle, Reply.within, hd]⟩

/-- A call that changes nothing by its effect changes nothing. -/
theorem cache_perform_of_eq (h : ∀ now, (effect now s.cache).2 = s.cache) :
    (s.perform limit operation reply effect).2.cache = s.cache := by
  cases hl : reply.lands limit with
  | true => rw [perform_of_lands hl]; exact h _
  | false => obtain ⟨cause, now, e⟩ := perform_of_not_lands hl s operation effect; rw [e]

end ClockedCache

end Herald
