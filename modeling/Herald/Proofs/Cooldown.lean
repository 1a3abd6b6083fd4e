import Herald.Proofs.Cache
import Herald.Proofs.Keys

/-!
# What is suppressed

A check is answered by what was recorded before: the mark of a cooldown in the cache is set by the
latest record of a notification like the one that is checked, and runs out when the cooldown is over.

* `mark?_after`: the marks in the cache and the records that took effect.
* `suppressed_iff`: which notifications are suppressed.
-/

namespace Herald.Cooldown

variable {d : Durations} {limit : Limit} {reply : Reply Failure Unit} {user user' : UserId}
  {n n' : Notification} {s : ClockedCache} {w w' : Window}

/-! ## Notifications that share a cooldown -/

/-- The categories of notifications that may be suppressed. -/
def limited : List Category := [.newRoom, .roomJoined, .welcomeRoom, .roomInvite]

/-- How long the cooldown of a notification lasts: invites have one of their own. -/
def span (d : Durations) (n : Notification) : Nat :=
  if n.category = .roomInvite then d.roomInvite else d.roomActivity

/-- A notification that was recorded as sent, and when the record took effect. -/
structure Sent where
  user : UserId
  notification : Notification
  time : Nat

/-- What was sent shares its cooldown with a notification: the user, the kind (invites or other room
activity) and the context are the same. -/
def Sent.Alike (r : Sent) (user : UserId) (n : Notification) : Prop :=
  r.user = user ∧ r.notification.category ∈ limited ∧
    (r.notification.category = .roomInvite ↔ n.category = .roomInvite) ∧
    r.notification.collapseKey = n.collapseKey

instance (r : Sent) (user : UserId) (n : Notification) : Decidable (r.Alike user n) :=
  inferInstanceAs (Decidable (_ ∧ _ ∧ _ ∧ _))

theorem classOf_eq_some {category : Category} {c : Class} : classOf category = some c ↔
    category ∈ limited ∧ c = if category = .roomInvite then .roomInvite else .roomActivity := by
  cases category <;> cases c <;> decide

theorem window?_eq_some : window? d user n = some w ↔ ∃ c context, classOf n.category = some c ∧
    n.collapseKey = some context ∧ w = ⟨key user c context, d.get c⟩ := by
  simp only [window?, Option.bind_eq_bind, Option.bind_eq_some_iff, Option.pure_def,
    Option.some.injEq, eq_comm (b := w)]
  constructor
  · rintro ⟨c, hc, context, hx, hw⟩; exact ⟨c, context, hc, hx, hw⟩
  · rintro ⟨c, context, hc, hx, hw⟩; exact ⟨c, hc, context, hx, hw⟩

theorem window?_eq_none : window? d user n = none ↔ ¬(n.category ∈ limited ∧ n.collapseKey.isSome) := by
  rw [Option.eq_none_iff_forall_ne_some]
  constructor
  · rintro h ⟨hc, hx⟩
    obtain ⟨context, hx⟩ := Option.isSome_iff_exists.1 hx
    exact h _ (window?_eq_some.2 ⟨_, context, classOf_eq_some.2 ⟨hc, rfl⟩, hx, rfl⟩)
  · rintro h w hw
    obtain ⟨c, context, hc, hx, -⟩ := window?_eq_some.1 hw
    exact h ⟨(classOf_eq_some.1 hc).1, by rw [hx]; rfl⟩

theorem ttl_eq_span (h : window? d user n = some w) : w.ttl = span d n := by
  obtain ⟨c, context, hc, -, rfl⟩ := window?_eq_some.1 h
  rw [(classOf_eq_some.1 hc).2, span]
  split <;> rfl

/-- The key of a cooldown says which notifications share it. -/
theorem window_key_eq_iff (h : window? d user n = some w) (h' : window? d user' n' = some w')
    (time : Nat) : w.key = w'.key ↔ Sent.Alike ⟨user', n', time⟩ user n := by
  obtain ⟨c, context, hc, hx, rfl⟩ := window?_eq_some.1 h
  obtain ⟨c', context', hc', hx', rfl⟩ := window?_eq_some.1 h'
  obtain ⟨hl, hc⟩ := classOf_eq_some.1 hc
  obtain ⟨hl', hc'⟩ := classOf_eq_some.1 hc'
  have hclass : c = c' ↔ (n'.category = .roomInvite ↔ n.category = .roomInvite) := by
    rw [hc, hc']
    split <;> split <;> simp [*]
  simp only [Sent.Alike, hl', true_and, ← hclass, hx, hx', Option.some.injEq]
  constructor
  · intro hk
    obtain ⟨hu, hcc, hxx⟩ := key_inj hk
    exact ⟨hu.symm, hcc, hxx.symm⟩
  · rintro ⟨rfl, rfl, rfl⟩; rfl

/-- Cooldowns with one key last equally long. -/
theorem ttl_eq_of_key_eq (h : window? d user n = some w) (h' : window? d user' n' = some w')
    (hk : w.key = w'.key) : w.ttl = w'.ttl := by
  have ha := (window_key_eq_iff h h' 0).1 hk
  rw [ttl_eq_span h, ttl_eq_span h', span, span]
  exact if_congr ha.2.2.1.symm rfl rfl

/-- What shares a cooldown with a notification that has one has one too. -/
theorem Sent.Alike.window {r : Sent} (h : r.Alike user n) (hw : window? d user n = some w) :
    ∃ w', window? d r.user r.notification = some w' := by
  refine Option.ne_none_iff_exists'.1 fun hn => window?_eq_none.1 hn ⟨h.2.1, ?_⟩
  obtain ⟨c, context, -, hx, -⟩ := window?_eq_some.1 hw
  rw [h.2.2.2, hx]; rfl

/-! ## Calls -/

theorem shouldSend_of_none (h : window? d user n = none) :
    shouldSend d limit reply user n s = (true, [], s) := by
  unfold shouldSend; rw [h]

/-- A check looks at one mark, if it is answered. -/
theorem shouldSend_eq_false (h : window? d user n = some w) :
    (shouldSend d limit reply user n s).1 = false ↔
      reply.lands limit = true ∧ s.cache.isMarked (s.now + reply.delay) w.key = true := by
  unfold shouldSend
  rw [h]
  cases hl : reply.lands limit with
  | true => simp [ClockedCache.perform_of_lands hl, allows]
  | false =>
    obtain ⟨cause, now, e⟩ := ClockedCache.perform_of_not_lands hl s checkName
      fun now c => (c.isMarked now w.key, c)
    simp [e, allows]

/-- A check changes nothing. -/
theorem cache_shouldSend : (shouldSend d limit reply user n s).2.2.cache = s.cache := by
  unfold shouldSend
  split
  · rfl
  · exact ClockedCache.cache_perform_of_eq fun _ => rfl

/-- A record sets the mark of its cooldown if it takes effect, and changes nothing else. -/
theorem cache_recordSent : (recordSent d limit reply user n s).2.cache =
    match window? d user n with
    | some w =>
      if reply.lands limit then s.cache.setMark w.key (s.now + reply.delay + w.ttl) else s.cache
    | none => s.cache := by
  unfold recordSent
  cases window? d user n with
  | none => rfl
  | some w =>
    cases hl : reply.lands limit with
    | true => simp only [ClockedCache.perform_of_lands hl, if_true]
    | false =>
      obtain ⟨cause, now, e⟩ := ClockedCache.perform_of_not_lands hl s recordName
        fun now c => ((), c.setMark w.key (now + w.ttl))
      simp [e]

/-- What a record for another user, kind or context writes is not what a check reads. -/
theorem mark?_recordSent_of_not_alike (h : window? d user n = some w) {time : Nat}
    (hn : ¬ Sent.Alike ⟨user', n', time⟩ user n) :
    (recordSent d limit reply user' n' s).2.cache.mark? w.key = s.cache.mark? w.key := by
  rw [cache_recordSent]
  split
  · next w' hw' =>
    split
    · rw [Cache.mark?_setMark, if_neg fun hk => hn ((window_key_eq_iff h hw' time).1 hk)]
    · rfl
  · rfl

/-! ## Runs -/

/-- Something that may happen. -/
inductive Act where
  | check (reply : Reply Failure Unit) (user : UserId) (n : Notification)
  | record (reply : Reply Failure Unit) (user : UserId) (n : Notification)
  | pass (ms : Nat)

/-- What acts make of the cache and of the clock; they are given latest first. -/
def after (d : Durations) (limit : Limit) (s : ClockedCache) : List Act → ClockedCache
  | [] => s
  | .check reply user n :: acts => (shouldSend d limit reply user n (after d limit s acts)).2.2
  | .record reply user n :: acts => (recordSent d limit reply user n (after d limit s acts)).2
  | .pass ms :: acts => (after d limit s acts).advance ms

/-- What was recorded by acts, latest first. -/
def sent (d : Durations) (limit : Limit) (s : ClockedCache) : List Act → List Sent
  | [] => []
  | .record reply user n :: acts =>
    if reply.lands limit then
      ⟨user, n, (after d limit s acts).now + reply.delay⟩ :: sent d limit s acts
    else sent d limit s acts
  | _ :: acts => sent d limit s acts

/-- No cooldown is known. -/
def Fresh (c : Cache) : Prop := ∀ user className context, c.mark? (key user className context) = none

/-- The mark of a cooldown runs out when the cooldown of the latest notification that shares it is
over. -/
theorem mark?_after (fresh : Fresh s.cache) (acts : List Act) (h : window? d user n = some w) :
    (after d limit s acts).cache.mark? w.key =
      ((sent d limit s acts).find? (·.Alike user n)).map (·.time + span d n) := by
  induction acts with
  | nil =>
    obtain ⟨c, context, -, -, rfl⟩ := window?_eq_some.1 h
    exact fresh user c context
  | cons a acts ih =>
    cases a with
    | check => exact (congrArg (Cache.mark? · w.key) cache_shouldSend).trans ih
    | pass => exact ih
    | record reply user' n' =>
      simp only [after, sent]
      cases hl : reply.lands limit with
      | false =>
        rw [if_neg Bool.false_ne_true, ← ih, cache_recordSent, hl]
        split <;> rfl
      | true =>
        rw [if_pos rfl, List.find?_cons]
        by_cases ha : Sent.Alike ⟨user', n', (after d limit s acts).now + reply.delay⟩ user n
        · -- The record is the latest one, and sets the mark that is read.
          obtain ⟨w', hw'⟩ := ha.window h
          have hk := (window_key_eq_iff h hw' _).2 ha
          have hspan : w'.ttl = span d n := (ttl_eq_of_key_eq h hw' hk).symm.trans (ttl_eq_span h)
          rw [cache_recordSent, hw', decide_eq_true ha]
          simp [hl, Cache.mark?_setMark, hk, hspan]
        · rw [mark?_recordSent_of_not_alike h ha, ih, decide_eq_false ha]

/-- Which notifications are suppressed, after any run of checks, records and waits, with a cache that
may fail or be late with any call.

A check says no exactly if the notification is one of a room and has a context, the check comes to an
answer, and the latest record that took effect for the same user, kind and context did so less than
a cooldown before the check takes effect. So other notifications are never suppressed and cost no
call, a check that fails suppresses nothing, and what is recorded for another user, kind or context
makes no difference. A check leaves the cache as it is, and a record changes no mark but its own.

Two things are the promise of the cache here. A record whose call fails or is cut off takes no effect at all,
and one that takes effect does so when its call ends (`ClockedCache.settle`). A mark lives exactly as long as
was asked for (`Cache.setMark`). -/
theorem suppressed_iff (d : Durations) (limit : Limit) (fresh : Fresh s.cache) (acts : List Act)
    (reply : Reply Failure Unit) (user : UserId) (n : Notification) :
    let t := after d limit s acts
    let answer := shouldSend d limit reply user n t
    let u := (recordSent d limit reply user n t).2
    (answer.1 = false ↔ n.category ∈ [.newRoom, .roomJoined, .welcomeRoom, .roomInvite] ∧
      n.collapseKey.isSome ∧ reply.lands limit = true ∧
      ∃ r, (sent d limit s acts).find? (·.Alike user n) = some r ∧
        t.now + reply.delay < r.time + span d n) ∧
    (n.category ∈ [.newFollower, .followRecommendations] ∨ n.collapseKey = none →
      answer = (true, [], t)) ∧
    (reply.lands limit = false → answer.1 = true) ∧
    (∀ reply' user' n', ¬ Sent.Alike ⟨user', n', t.now⟩ user n →
      (shouldSend d limit reply user n
        { t with cache := (recordSent d limit reply' user' n' t).2.cache }).1 = answer.1) ∧
    answer.2.2.cache = t.cache ∧
    u.cache.lists = t.cache.lists ∧
    (∀ k, u.cache.mark? k ≠ t.cache.mark? k →
      ∃ w, window? d user n = some w ∧ k = w.key ∧ reply.lands limit = true ∧
        u.cache.mark? k = some (t.now + reply.delay + span d n)) := by
  intro t answer u
  have hiff : answer.1 = false ↔ n.category ∈ limited ∧ n.collapseKey.isSome ∧
      reply.lands limit = true ∧ ∃ r, (sent d limit s acts).find? (·.Alike user n) = some r ∧
        t.now + reply.delay < r.time + span d n := by
    rw [← and_assoc]
    cases hw : window? d user n with
    | none =>
      have ha : answer = (true, [], t) := shouldSend_of_none hw
      simp [ha, window?_eq_none.1 hw]
    | some w =>
      have hl : n.category ∈ limited ∧ n.collapseKey.isSome :=
        not_not.1 fun hn => Option.some_ne_none w (hw.symm.trans (window?_eq_none.2 hn))
      rw [shouldSend_eq_false hw, Cache.isMarked, mark?_after fresh acts hw]
      simp only [hl, and_self, true_and]
      refine and_congr_right fun _ => ?_
      cases (sent d limit s acts).find? (·.Alike user n) <;> simp [t]
  have hu : u.cache = _ := cache_recordSent
  refine ⟨hiff, ?_, ?_, ?_, cache_shouldSend, ?_, ?_⟩
  · intro hn
    refine shouldSend_of_none (window?_eq_none.2 ?_)
    rintro ⟨hc, hx⟩
    rcases hn with hn | hn
    · revert hc hn
      cases n.category <;> decide
    · rw [hn] at hx; cases hx
  · intro hl
    refine Bool.ne_false_iff.1 fun hf => ?_
    exact Bool.false_ne_true (hl.symm.trans (hiff.1 hf).2.2.1)
  · intro reply' user' n' hn
    cases hw : window? d user n with
    | none => simp only [answer, shouldSend_of_none hw]
    | some w =>
      refine Bool.eq_iff_iff.2 (not_iff_not.1 ?_)
      simp only [Bool.not_eq_true]
      rw [shouldSend_eq_false hw, shouldSend_eq_false hw, Cache.isMarked,
        mark?_recordSent_of_not_alike hw hn]
      rfl
  · rw [hu]
    split
    · split <;> rfl
    · rfl
  · intro k hk
    rw [hu] at hk ⊢
    split at hk
    · next w hw =>
      split at hk
      · next hl =>
        rw [Cache.mark?_setMark] at hk
        have he : k = w.key := by_contra fun he => hk (if_neg he)
        refine ⟨w, hw, he, hl, ?_⟩
        rw [if_pos hl, Cache.mark?_setMark, if_pos he, ttl_eq_span hw]
      · exact absurd rfl hk
    · exact absurd rfl hk

/-- A room starts, and somebody joins it later on: the two notifications share a cooldown. -/
def roomStarts : Notification := ⟨.newRoom, ⟨"", []⟩, ∅, some "r", none⟩

def roomJoined : Notification := ⟨.roomJoined, ⟨"", []⟩, ∅, some "r", none⟩

/-- The record of one notification takes effect, and that of another one comes too late. -/
def lateRecord : List Act :=
  [.pass 40, .record ⟨11, .ok ()⟩ 1 roomStarts, .record ⟨3, .ok ()⟩ 1 roomStarts]

/-- Fifty-four milliseconds after the start, the cooldown that began three milliseconds after it is
still on, but not two milliseconds later. -/
theorem suppressed_iff_lateRecord :
    (shouldSend ⟨52, 0⟩ (.ofMillis 10) ⟨1, .ok ()⟩ 1 roomJoined
      (after ⟨52, 0⟩ (.ofMillis 10) {} lateRecord)).1 = false ∧
    (shouldSend ⟨52, 0⟩ (.ofMillis 10) ⟨2, .ok ()⟩ 1 roomJoined
      (after ⟨52, 0⟩ (.ofMillis 10) {} lateRecord)).1 ≠ false := by
  have fresh : Fresh ({} : ClockedCache).cache := fun _ _ _ => rfl
  have h := fun ms => (suppressed_iff ⟨52, 0⟩ (.ofMillis 10) fresh lateRecord ⟨ms, .ok ()⟩ 1
    roomJoined).1
  have hf : (sent ⟨52, 0⟩ (.ofMillis 10) {} lateRecord).find? (·.Alike 1 roomJoined) =
      some ⟨1, roomStarts, 3⟩ := rfl
  refine ⟨(h 1).2 ⟨by decide, rfl, by decide, _, hf, by decide⟩, fun hn => ?_⟩
  obtain ⟨r, hr, hlt⟩ := ((h 2).1 hn).2.2.2
  rw [hf] at hr
  cases hr
  exact absurd hlt (by decide)

end Herald.Cooldown
