import Herald.Proofs.Cache
import Herald.Proofs.Keys
import Herald.Proofs.Notification.Codec
import Herald.Proofs.Trace

/-!
# What a history says

Several workers store entries in one cache, and their calls overlap: a call is answered some time
after it was made, and what it stores takes its place when it ends. A history then says what the latest
of these calls stored for its user, each list being the front of all that was ever put there.

* `trace_store`: a call during which nothing else happens.
* `Shared.step_put`, `entries_eq`: what one act does to the lists, and what a run does.
* `reads_latest`: what is read after a run.
-/

namespace Herald.History

variable {cap : Nat} {limit : Limit} {reply : Reply Failure Unit} {user : UserId}
  {n : StoredNotification}

/-! ## Single calls -/

/-- A call that does not take effect changes nothing. -/
theorem store_of_not_lands (h : reply.lands limit = false) (cap : Nat) (user : UserId)
    (n : StoredNotification) (s : ClockedCache) :
    ∃ cause now, store cap limit reply user n s =
      (.error cause, [.pushEntry (key user) cap], ⟨now, s.cache⟩) := by
  obtain ⟨cause, now, e⟩ := ClockedCache.perform_of_not_lands h s writeName
    fun _ c => ((), c.push (key user) n.encode cap)
  exact ⟨cause, now, by rw [store, e]⟩

theorem store_of_lands (h : reply.lands limit = true) (s : ClockedCache) :
    store cap limit reply user n s = (.ok (), [.pushEntry (key user) cap],
      ⟨s.now + reply.delay, s.cache.push (key user) n.encode cap⟩) := by
  rw [store, ClockedCache.perform_of_lands h]

/-! ## Runs -/

/-- A call to store an entry that is under way. -/
structure Writing where
  user : UserId
  entry : StoredNotification
  started : Nat
  reply : Reply Failure Unit

/-- When the call ends, and with what. -/
def Writing.call (limit : Limit) (w : Writing) : Pending Failure Unit :=
  .start w.started limit writeName w.reply

/-- A cache, and the calls under way. -/
structure Shared where
  clock : ClockedCache
  writing : List Writing := []

/-- Something that may happen. -/
inductive Act where
  /-- A worker starts to store an entry. -/
  | start (reply : Reply Failure Unit) (user : UserId) (entry : StoredNotification)
  /-- The call at a position ends. -/
  | finish (position : Nat)
  /-- Somebody else puts a text in front of a list. -/
  | push (key text : String)
  | pass (ms : Nat)

/-- What an act makes of a cache and of the calls; none if the act is not possible. What is left of a
call at its end is a call without delay. -/
def Shared.step (cap : Nat) (limit : Limit) (s : Shared) : Act → Option Shared
  | .start reply user entry =>
    some { s with writing := s.writing ++ [⟨user, entry, s.clock.now, reply⟩] }
  | .finish position =>
    match s.writing[position]? with
    | none => none
    | some w =>
      if (w.call limit).isOver s.clock.now then
        some {
          clock := (store cap limit ⟨0, (w.call limit).answer⟩ w.user w.entry s.clock).2.2
          writing := s.writing.eraseIdx position }
      else none
  | .push key text => some { s with clock := { s.clock with cache := s.clock.cache.push key text cap } }
  | .pass ms => some { s with clock := s.clock.advance ms }

/-- Something that was put in front of a list. -/
inductive Put where
  | entry (user : UserId) (n : StoredNotification)
  | text (key content : String)

/-- Whose list it is. -/
def Put.key : Put → String
  | .entry user _ => History.key user
  | .text key _ => key

/-- What the list holds. -/
def Put.content : Put → String
  | .entry _ n => n.encode
  | .text _ content => content

/-- What an act puts in front of a list: a call does if its reply comes in time and is no failure. -/
def Shared.puts (limit : Limit) (s : Shared) : Act → List Put
  | .finish position =>
    match s.writing[position]? with
    | some w => if w.reply.lands limit then [.entry w.user w.entry] else []
    | none => []
  | .push key text => [.text key text]
  | _ => []

/-- What acts put in front of lists, latest first. -/
def putsOf (cap : Nat) (limit : Limit) (s : Shared) (acts : List Act) : List Put :=
  seen (Shared.step cap limit) (Shared.puts limit) s acts

/-- What is left of a call at its end takes effect as the whole call does. -/
theorem lands_rest (limit : Limit) (w : Writing) :
    Reply.lands limit ⟨0, (w.call limit).answer⟩ = w.reply.lands limit := by
  obtain ⟨user, entry, started, delay, answer⟩ := w
  by_cases h : delay ≤ limit.expiry
  · simp [Reply.lands, Writing.call, Pending.start, Reply.within, h]
  · simp [Reply.lands, Writing.call, Pending.start, Reply.within, h, Except.isOk, Except.toBool]

variable {s t u : Shared} {acts : List Act} {a : Act}

/-- A call during which nothing else happens is its start, the wait for its end, and its end. -/
theorem trace_store (cap : Nat) (limit : Limit) (reply : Reply Failure Unit) (user : UserId)
    (n : StoredNotification) (s : ClockedCache) :
    Trace (Shared.step cap limit) ⟨s, []⟩
      [.finish 0, .pass (reply.within limit writeName).delay, .start reply user n]
      ⟨(store cap limit reply user n s).2.2, []⟩ := by
  rw [trace_iff]
  simp only [play, Shared.step, Writing.call, Pending.start, Pending.isOver, ClockedCache.advance,
    store, ClockedCache.perform, Option.bind_some, List.nil_append, List.getElem?_cons_zero,
    Nat.le_refl, decide_true, if_true, List.eraseIdx_cons_zero]
  have e : Reply.within limit writeName ⟨0, (reply.within limit writeName).answer⟩ =
      ⟨0, (reply.within limit writeName).answer⟩ := if_pos (Nat.zero_le _)
  rw [e]
  cases h : (reply.within limit writeName).answer <;> simp [ClockedCache.settle, h]

/-- An act puts one thing in front of a list, or leaves the lists as they are. -/
theorem Shared.step_put (h : t.step cap limit a = some u) :
    t.puts limit a = [] ∧ u.clock.cache = t.clock.cache ∨
    ∃ p, t.puts limit a = [p] ∧ u.clock.cache = t.clock.cache.push p.key p.content cap := by
  cases a with
  | start reply user entry => cases h; exact .inl ⟨rfl, rfl⟩
  | push key text => cases h; exact .inr ⟨_, rfl, rfl⟩
  | pass ms => cases h; exact .inl ⟨rfl, rfl⟩
  | finish position =>
    simp only [step] at h
    split at h
    · cases h
    · next w hw =>
      split at h
      · cases h
        have e := lands_rest limit w
        cases hl : w.reply.lands limit with
        | true =>
          refine .inr ⟨.entry w.user w.entry, by simp [puts, hw, hl], ?_⟩
          rw [store_of_lands (e.trans hl)]
          rfl
        | false =>
          obtain ⟨cause, now, e⟩ := store_of_not_lands (e.trans hl) cap w.user w.entry t.clock
          exact .inl ⟨by simp [puts, hw, hl], by rw [e]⟩
      · cases h

/-- A list is the front of all that was put there. -/
theorem entries_eq (h : Trace (Shared.step cap limit) s acts t) {k : String}
    (hk : (s.clock.cache.entries k).length ≤ cap) : t.clock.cache.entries k =
      (((putsOf cap limit s acts).filter (·.key = k)).map Put.content ++
        s.clock.cache.entries k).take cap := by
  induction h with
  | refl => simp [putsOf, seen, List.take_of_length_le hk]
  | step a h' e ih =>
    rw [putsOf, h'.seen_cons, ← putsOf]
    rcases Shared.step_put e with ⟨hp, hc⟩ | ⟨p, hp, hc⟩
    · rw [hp, hc, ih, List.nil_append]
    · rw [hp, hc, Cache.entries_push, List.singleton_append]
      by_cases hpk : k = p.key
      · subst hpk
        rw [if_pos rfl, ih, List.filter_cons_of_pos (by simp), List.map_cons, List.cons_append]
        cases cap with
        | zero => rfl
        | succ cap => simp [List.take_take]
      · rw [if_neg hpk, ih, List.filter_cons_of_neg (by simpa using Ne.symm hpk)]

/-! ## Entries -/

/-- The entry that something puts in front of a user's history. -/
def Put.entryFor? (user : UserId) : Put → Option StoredNotification
  | .entry v n => if v = user then some n else none
  | .text .. => none

/-- What something puts in front of a user's history, if anything; `some none` is what is no entry. -/
def Put.placeFor? (user : UserId) : Put → Option (Option StoredNotification)
  | .entry v n => if v = user then some (some n) else none
  | .text k content => if k = History.key user then some (StoredNotification.decode? content) else none

/-- Everything that is stored can be read. -/
def Readable (puts : List Put) : Prop := ∀ user n, .entry user n ∈ puts → n.Readable

theorem Put.placeFor?_eq {p : Put} (h : Readable [p]) : p.placeFor? user =
    if p.key = History.key user then some (StoredNotification.decode? p.content) else none := by
  cases p with
  | text k content => rfl
  | entry v n =>
    have hn := StoredNotification.decode?_encode (h v n (List.mem_singleton.2 rfl))
    by_cases hv : v = user
    · simp [placeFor?, key, content, hv, hn]
    · have hk : History.key v ≠ History.key user := fun e => hv (key_inj e)
      simp [placeFor?, key, hv, hk]

/-- What is stored comes back from its place. -/
theorem map_decode?_filter {puts : List Put} (h : Readable puts) :
    ((puts.filter (·.key = key user)).map Put.content).map StoredNotification.decode? =
      puts.filterMap (·.placeFor? user) := by
  induction puts with
  | nil => rfl
  | cons p puts ih =>
    have ih := ih fun v n hn => h v n (List.mem_cons_of_mem _ hn)
    have hp : Readable [p] := fun v n hn => h v n (List.mem_singleton.1 hn ▸ List.mem_cons_self ..)
    rw [List.filter_cons, List.filterMap_cons, Put.placeFor?_eq hp, ← ih]
    by_cases hk : p.key = key user <;> simp [hk]

/-- If nobody else writes to a user's history, it holds what was stored. -/
theorem filterMap_placeFor? {puts : List Put} (h : ∀ content, .text (key user) content ∉ puts) :
    puts.filterMap (·.placeFor? user) = (puts.filterMap (·.entryFor? user)).map some := by
  rw [List.map_filterMap]
  refine List.filterMap_congr fun p hp => ?_
  cases p with
  | entry v n => by_cases hv : v = user <;> simp [Put.placeFor?, Put.entryFor?, hv]
  | text k content =>
    have hk : k ≠ key user := by rintro rfl; exact h content hp
    simp [Put.placeFor?, Put.entryFor?, hk]

/-- Calls under way were started, and what an act stores is what a call under way was to store. -/
theorem Shared.step_writing (h : t.step cap limit a = some u) :
    (∀ w ∈ u.writing, w ∈ t.writing ∨ ∃ reply user, a = .start reply user w.entry) ∧
    ∀ v n, .entry v n ∈ t.puts limit a → ∃ w ∈ t.writing, w.entry = n := by
  cases a with
  | start reply user entry =>
    cases h
    refine ⟨fun w hw => ?_, fun v n hp => nomatch hp⟩
    rcases List.mem_append.1 hw with hw | hw
    · exact .inl hw
    · rw [List.mem_singleton.1 hw]; exact .inr ⟨reply, user, rfl⟩
  | push k content => cases h; exact ⟨fun w hw => .inl hw, fun v n hp => by simp [puts] at hp⟩
  | pass ms => cases h; exact ⟨fun w hw => .inl hw, fun v n hp => nomatch hp⟩
  | finish position =>
    simp only [step] at h
    split at h
    · cases h
    · next w hw =>
      split at h
      · cases h
        refine ⟨fun w hw => .inl (List.mem_of_mem_eraseIdx hw), fun v n hp => ?_⟩
        refine ⟨w, List.mem_of_getElem? hw, ?_⟩
        simp only [puts, hw] at hp
        split at hp
        · cases List.mem_singleton.1 hp; rfl
        · cases hp
      · cases h

/-- What is stored is what workers were to store. -/
theorem entry_of_trace (h : Trace (Shared.step cap limit) s acts t) {P : StoredNotification → Prop}
    (hw : ∀ w ∈ s.writing, P w.entry) (ha : ∀ reply user n, .start reply user n ∈ acts → P n) :
    (∀ w ∈ t.writing, P w.entry) ∧ ∀ v n, .entry v n ∈ putsOf cap limit s acts → P n := by
  induction h with
  | refl => exact ⟨hw, fun _ _ h => nomatch h⟩
  | step a h' e ih =>
    obtain ⟨ihw, ihp⟩ := ih fun reply user n hm => ha reply user n (List.mem_cons_of_mem _ hm)
    obtain ⟨hw, hp⟩ := Shared.step_writing e
    rw [putsOf, h'.seen_cons, ← putsOf]
    constructor
    · intro w hm
      rcases hw w hm with hm | ⟨reply, user, rfl⟩
      · exact ihw w hm
      · exact ha reply user w.entry (List.mem_cons_self ..)
    · intro v n hm
      rcases List.mem_append.1 hm with hm | hm
      · obtain ⟨w, hwt, rfl⟩ := hp v n hm
        exact ihw w hwt
      · exact ihp v n hm

/-- What nobody stored was pushed by somebody else. -/
theorem push_of_mem_putsOf {k content : String} (h : .text k content ∈ putsOf cap limit s acts) :
    .push k content ∈ acts := by
  obtain ⟨t, a, ha, hp⟩ := exists_of_mem_seen h
  cases a with
  | start reply user entry => cases hp
  | pass ms => cases hp
  | push k' content' => cases List.mem_singleton.1 hp; exact ha
  | finish position =>
    simp only [Shared.puts] at hp
    split at hp
    · split at hp
      · cases List.mem_singleton.1 hp
      · cases hp
    · cases hp

/-! ## Reading -/

theorem read_of_lands (h : reply.lands limit = true) (s : ClockedCache) :
    (read limit reply user s).1 = .ok (ofTexts (s.cache.entries (key user))) := by
  rw [read, ClockedCache.perform_of_lands h]

theorem cache_read (s : ClockedCache) : (read limit reply user s).2.2.cache = s.cache :=
  ClockedCache.cache_perform_of_eq fun _ => rfl

/-- What is read of a user's history, after any run of overlapping calls to store entries, some of
which fail or come too late.

If nobody else writes to the history, it says what the latest `cap` calls that took effect stored for
this user, newest first. What somebody else puts there, or what was there before, takes one of the
places like any entry; where it is no entry it is passed over, and all others stay in their order.
Reading changes nothing, and neither does a call that fails or is cut off, whether others overlap with
it or not. -/
theorem reads_latest (cap : Nat) (limit : Limit) {c : ClockedCache} {t : Shared} {acts : List Act}
    (h : Trace (Shared.step cap limit) ⟨c, []⟩ acts t)
    (readable : ∀ reply user n, .start reply user n ∈ acts → n.Readable) :
    let puts := putsOf cap limit ⟨c, []⟩ acts
    (∀ reply user, reply.lands limit = true → c.cache.entries (key user) = [] →
      (∀ content, .push (key user) content ∉ acts) →
      (read limit reply user t.clock).1 = .ok ((puts.filterMap (·.entryFor? user)).take cap)) ∧
    (∀ reply user, reply.lands limit = true → (c.cache.entries (key user)).length ≤ cap →
      (read limit reply user t.clock).1 = .ok (((puts.filterMap (·.placeFor? user) ++
        (c.cache.entries (key user)).map StoredNotification.decode?).take cap).filterMap id)) ∧
    (∀ reply user, (read limit reply user t.clock).2.2.cache = t.clock.cache) ∧
    (∀ reply user n, reply.lands limit = false → ∃ cause now, store cap limit reply user n t.clock =
      (.error cause, [.pushEntry (key user) cap], ⟨now, t.clock.cache⟩)) ∧
    (∀ position w u, t.writing[position]? = some w → w.reply.lands limit = false →
      t.step cap limit (.finish position) = some u → u.clock.cache = t.clock.cache) := by
  intro puts
  have hr : Readable puts := (entry_of_trace h (by simp) readable).2
  have hp : ∀ reply user, reply.lands limit = true → (c.cache.entries (key user)).length ≤ cap →
      (read limit reply user t.clock).1 = .ok (((puts.filterMap (·.placeFor? user) ++
        (c.cache.entries (key user)).map StoredNotification.decode?).take cap).filterMap id) := by
    intro reply user hl hc
    rw [read_of_lands hl, entries_eq h hc, ofTexts, ← map_decode?_filter hr, ← List.map_append,
      ← List.map_take, List.filterMap_map]
    rfl
  refine ⟨fun reply user hl hc hn => ?_, hp, fun reply user => cache_read _,
    fun reply user n hl => store_of_not_lands hl cap user n _, fun position w u hw hl e => ?_⟩
  · have hn : ∀ content, .text (key user) content ∉ puts := fun x hx => hn x (push_of_mem_putsOf hx)
    rw [hp reply user hl (by simp [hc]), hc, List.map_nil, List.append_nil, filterMap_placeFor? hn,
      ← List.map_take, List.filterMap_map]
    exact congrArg _ List.filterMap_some
  · rcases Shared.step_put e with ⟨-, hc⟩ | ⟨p, hp, -⟩
    · exact hc
    · simp [Shared.puts, hw, hl] at hp

/-- An entry without arguments. -/
def entryAt (timestamp : Int64) : StoredNotification := ⟨timestamp, 9, .newFollower, ∅⟩

/-- Two workers store entries for one user, and the later call ends first; a third call comes too late,
a fourth one is for another user. Then somebody puts half a text in front of the first history. -/
def overlapping : List Act :=
  [.push "notifications:1" "\x7b", .finish 0, .finish 0, .finish 0, .finish 1, .pass 10,
    .start ⟨7, .ok ()⟩ 2 (entryAt 4), .start ⟨11, .ok ()⟩ 1 (entryAt 3),
    .start ⟨2, .ok ()⟩ 1 (entryAt 2), .start ⟨5, .ok ()⟩ 1 (entryAt 1)]

theorem reads_latest_overlapping : ∃ t, Trace (Shared.step 2 (.ofMillis 10)) ⟨{}, []⟩ overlapping t ∧
    (read (.ofMillis 10) ⟨0, .ok ()⟩ 1 t.clock).1 = .ok [entryAt 1] ∧
    (read (.ofMillis 10) ⟨0, .ok ()⟩ 2 t.clock).1 = .ok [entryAt 4] := by
  obtain ⟨t, ht⟩ : ∃ t, play (Shared.step 2 (.ofMillis 10)) ⟨{}, []⟩ overlapping = some t := ⟨_, rfl⟩
  have h := reads_latest 2 (.ofMillis 10) (trace_iff.2 ht) (by
    intro reply user n hn
    have hn : ∃ i, n = entryAt i := by simp [overlapping] at hn; grind
    obtain ⟨i, rfl⟩ := hn
    have hd : (∅ : Arguments).toJson.depth + 1 ≤ Source.maxDepth := by decide
    exact ⟨rfl, (entryAt i).depth_toJson ▸ hd⟩)
  refine ⟨t, trace_iff.2 ht, ?_, ?_⟩
  · rw [h.2.1 _ _ (by decide) (by decide)]
    rfl
  · have hn : ∀ content, .push (key 2) content ∉ overlapping := by
      intro content hc
      have hk : key 2 = "notifications:1" := by simp [overlapping] at hc; exact hc.1
      exact absurd hk (by decide)
    rw [h.1 _ _ (by decide) rfl hn]
    rfl

end Herald.History
