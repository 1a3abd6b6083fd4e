import Herald.Proofs.Cooldown
import Herald.Redis
import Mathlib.Logic.Function.Basic

/-!
# One space of keys

The server of the cache keeps cooldowns and histories side by side. There, what is set for a while takes the place
of a list of the same key, and nothing can be put in front of what is no list. That this never happens is the work of
the keys.

* `Keyspace.run_of_ne`, `Keyspace.run_congr`: a command concerns one key, and what it makes of it depends on nothing
  else.
* `Keyspace.writeAll_filter`: what stands under a key is the work of the writes that are about it.
* `keys_apart`: keys for different purposes differ, so that no write for one of them is about another.
-/

namespace Herald

namespace Redis

/-! ## Commands -/

/-- What stands under a key. -/
inductive Entry where
  /-- Something that is set, and until when. -/
  | mark (ends : Nat)
  | list (entries : List String)
deriving DecidableEq, Repr

namespace Entry

/-- The time of the entry is not over. -/
def isCurrent (now : Nat) : Entry → Bool
  | mark ends => now < ends
  | list _ => true

/-- When that runs out which is to live for so many seconds. Some time has to pass until then, and it has to
be a signed number of 64 bits. -/
def expiry? (now seconds : Nat) : Option Nat :=
  let ends := now + seconds * 1000
  if 0 < seconds ∧ ends < twoPow 63 then some ends else none

end Entry

namespace Command

/-- The key that a command is about. -/
def key? : Command → Option String
  | ping | multi | exec => none
  | keyExists key | setExpiring key _ | leftPush key _ | trim key _ _ | range key _ _ => some key

/-- What a command makes of what stands under its key. A command for lists does nothing to what is no list,
and nothing is set for a time that cannot be told. -/
def effect (now : Nat) (found : Option Entry) : Command → Option Entry
  | setExpiring _ seconds =>
    match Entry.expiry? now seconds with
    | some ends => some (.mark ends)
    | none => found
  | leftPush _ value =>
    match found.filter (·.isCurrent now) with
    | some (.mark ends) => some (.mark ends)
    | some (.list entries) => some (.list (value :: entries))
    | none => some (.list [value])
  | trim _ first last =>
    match found.filter (·.isCurrent now) with
    | some (.list entries) =>
      let kept := Store.trim entries first.toInt last.toInt
      if kept.isEmpty then none else some (.list kept)
    | other => other
  | _ => found

end Command

/-- What a server keeps under its keys. -/
abbrev Keyspace := String → Option Entry

namespace Keyspace

variable {k k' : Keyspace} {now : Nat} {c : Command} {key : String}

/-- What a command makes of the keys. -/
def run (now : Nat) (k : Keyspace) (c : Command) : Keyspace :=
  match c.key? with
  | some key => Function.update k key (c.effect now (k key))
  | none => k

/-- What commands make of the keys, one after the other. -/
def runAll (now : Nat) (k : Keyspace) (commands : List Command) : Keyspace := commands.foldl (run now) k

/-- Whether a key is set. -/
def isSet (now : Nat) (k : Keyspace) (key : String) : Bool := ((k key).filter (·.isCurrent now)).isSome

/-- A command changes nothing under other keys. -/
theorem run_of_ne (now : Nat) (k : Keyspace) (h : c.key? ≠ some key) : run now k c key = k key := by
  unfold run
  cases hc : c.key? with
  | none => rfl
  | some other =>
    have hne : key ≠ other := fun e => h (hc.trans (congrArg some e.symm))
    exact Function.update_of_ne hne ..

/-- What a command leaves under a key depends on nothing but what stood there. -/
theorem run_congr (now : Nat) (c : Command) (h : k key = k' key) : run now k c key = run now k' c key := by
  by_cases hc : c.key? = some key
  · simp only [run, hc, Function.update_self, h]
  · rw [run_of_ne now k hc, run_of_ne now k' hc, h]

theorem runAll_of_ne {commands : List Command} (now : Nat) (k : Keyspace)
    (h : ∀ c ∈ commands, c.key? ≠ some key) : runAll now k commands key = k key := by
  induction commands generalizing k with
  | nil => rfl
  | cons c commands ih =>
    exact (ih (run now k c) fun d hd => h d (List.mem_cons_of_mem _ hd)).trans
      (run_of_ne now k (h c (List.mem_cons_self ..)))

theorem runAll_congr (now : Nat) (commands : List Command) (h : k key = k' key) :
    runAll now k commands key = runAll now k' commands key := by
  induction commands generalizing k k' with
  | nil => exact h
  | cons c commands ih => exact ih (run_congr now c h)

end Keyspace

/-! ## Writes -/

/-- What is written to the cache. -/
inductive Write where
  /-- A notification was sent. -/
  | sent (r : Cooldown.Sent)
  /-- An entry was put in front of a history. -/
  | stored (user : UserId) (entry : StoredNotification) (time : Nat)

namespace Write

variable {d : Cooldown.Durations} {cap : Nat} {user : UserId} {n : Notification} {w : Cooldown.Window}
  {c : Command}

/-- When a write takes effect. -/
def time : Write → Nat
  | sent r => r.time
  | stored _ _ time => time

/-- What the server is told. -/
def commands (d : Cooldown.Durations) (cap : Nat) : Write → List Command
  | sent r => (Cooldown.window? d r.user r.notification).elim [] fun w => setCommands w.key w.ttl
  | stored user entry _ => pushCommands (History.key user) entry.encode cap

/-- The write is about what shares its cooldown with a notification. -/
def marks (user : UserId) (n : Notification) : Write → Bool
  | sent r => r.Alike user n
  | stored .. => false

/-- The write is about the history of a user. -/
def fills (user : UserId) : Write → Bool
  | sent _ => false
  | stored user' _ _ => user' = user

theorem key?_stored {entry : StoredNotification} {time : Nat}
    (h : c ∈ (stored user entry time).commands d cap) :
    c.key? = none ∨ c.key? = some (History.key user) := by
  simp only [commands, pushCommands, List.mem_cons, List.not_mem_nil, or_false] at h
  rcases h with rfl | rfl | rfl | rfl
  · exact .inl rfl
  · exact .inr rfl
  · exact .inr rfl
  · exact .inl rfl

theorem key?_sent {r : Cooldown.Sent} (h : c ∈ (sent r).commands d cap) :
    ∃ w, Cooldown.window? d r.user r.notification = some w ∧ c.key? = some w.key := by
  simp only [commands] at h
  cases hw : Cooldown.window? d r.user r.notification with
  | none => simp [hw] at h
  | some w =>
    rw [hw] at h
    cases List.mem_singleton.1 h
    exact ⟨w, rfl, rfl⟩

theorem window_key_ne (h : Cooldown.window? d user n = some w) (user' : UserId) :
    History.key user' ≠ w.key := by
  obtain ⟨c, context, -, -, rfl⟩ := Cooldown.window?_eq_some.1 h
  exact History.key_ne_keyOf _ _ _ _

/-- No write but those of notifications that share a cooldown is about its key. -/
theorem key?_of_not_marks (hw : Cooldown.window? d user n = some w) (write : Write)
    (h : write.marks user n = false) : ∀ c ∈ write.commands d cap, c.key? ≠ some w.key := by
  intro c hc hk
  cases write with
  | stored user' entry time =>
    rcases key?_stored hc with hn | hs
    · cases hn.symm.trans hk
    · exact window_key_ne hw user' (Option.some.inj (hs.symm.trans hk))
  | sent r =>
    obtain ⟨w', hw', hs⟩ := key?_sent hc
    have halike := (Cooldown.window_key_eq_iff hw hw' r.time).1 (Option.some.inj (hk.symm.trans hs))
    exact of_decide_eq_false h halike

/-- No write but those to the history of a user is about its key. -/
theorem key?_of_not_fills (write : Write) (h : write.fills user = false) :
    ∀ c ∈ write.commands d cap, c.key? ≠ some (History.key user) := by
  intro c hc hk
  cases write with
  | stored user' entry time =>
    rcases key?_stored hc with hn | hs
    · cases hn.symm.trans hk
    · exact of_decide_eq_false h (History.key_inj (Option.some.inj (hs.symm.trans hk)))
  | sent r =>
    obtain ⟨w, hw, hs⟩ := key?_sent hc
    exact window_key_ne hw user (Option.some.inj (hk.symm.trans hs))

end Write

namespace Keyspace

/-- What writes make of the keys, one after the other. -/
def writeAll (k : Keyspace) (d : Cooldown.Durations) (cap : Nat) (writes : List Write) : Keyspace :=
  writes.foldl (fun k w => runAll w.time k (w.commands d cap)) k

/-- What stands under a key is the work of the writes that are about it. -/
theorem writeAll_filter {k k' : Keyspace} {d : Cooldown.Durations} {cap : Nat} {key : String}
    {about : Write → Bool}
    (h : ∀ w : Write, about w = false → ∀ c ∈ w.commands d cap, c.key? ≠ some key) (hk : k key = k' key)
    (writes : List Write) : k.writeAll d cap writes key = k'.writeAll d cap (writes.filter about) key := by
  induction writes generalizing k k' with
  | nil => exact hk
  | cons w writes ih =>
    cases hw : about w with
    | true =>
      rw [List.filter_cons_of_pos hw]
      exact ih (runAll_congr w.time _ hk)
    | false =>
      rw [List.filter_cons_of_neg (by simp [hw])]
      exact ih ((runAll_of_ne w.time k (h w hw)).trans hk)

end Keyspace

/-- A cooldown that is found was recorded, and for something that shares it. -/
theorem exists_alike_of_isSet {k : Keyspace} {d : Cooldown.Durations} {cap now : Nat} {writes : List Write}
    {user : UserId} {n : Notification} {w : Cooldown.Window} (hw : Cooldown.window? d user n = some w)
    (hk : k w.key = none) (h : (k.writeAll d cap writes).isSet now w.key = true) :
    ∃ r : Cooldown.Sent, .sent r ∈ writes ∧ r.Alike user n := by
  cases hf : writes.filter (·.marks user n) with
  | nil =>
    have hnone : k.writeAll d cap writes w.key = none := by
      rw [Keyspace.writeAll_filter (Write.key?_of_not_marks hw) rfl writes, hf]
      exact hk
    rw [Keyspace.isSet, hnone] at h
    cases h
  | cons write rest =>
    obtain ⟨hm, ha⟩ := List.mem_filter.1 (hf ▸ List.mem_cons_self (a := write) (l := rest))
    cases write with
    | sent r => exact ⟨r, hm, of_decide_eq_true ha⟩
    | stored user' entry time => cases ha

/-- A key tells whose it is, and what it is for. So a cooldown that is found was recorded for the same user, the same
class and the same context, and a history consists of what was stored for its user, whatever else was written. -/
theorem keys_apart :
    (Function.Injective fun p : UserId × Cooldown.Class × String => Cooldown.key p.1 p.2.1 p.2.2) ∧
    Function.Injective History.key ∧
    (∀ user c context user', Cooldown.key user c context ≠ History.key user') ∧
    ∀ (k : Keyspace) (d : Cooldown.Durations) (cap : Nat) (writes : List Write),
      (∀ user n w, Cooldown.window? d user n = some w →
        k.writeAll d cap writes w.key = k.writeAll d cap (writes.filter (·.marks user n)) w.key ∧
        (k w.key = none → ∀ now, (k.writeAll d cap writes).isSet now w.key = true →
          ∃ r : Cooldown.Sent, .sent r ∈ writes ∧ r.Alike user n)) ∧
      ∀ user, k.writeAll d cap writes (History.key user) =
        k.writeAll d cap (writes.filter (·.fills user)) (History.key user) := by
  refine ⟨fun p q h => ?_, fun u v h => History.key_inj h, fun u c x v => (History.key_ne_keyOf _ _ _ _).symm,
    fun k d cap writes => ⟨fun user n w hw => ⟨?_, fun hk now h => ?_⟩, fun user => ?_⟩⟩
  · obtain ⟨hu, hc, hx⟩ := Cooldown.key_inj h
    exact Prod.ext hu (Prod.ext hc hx)
  · exact Keyspace.writeAll_filter (Write.key?_of_not_marks hw) rfl writes
  · exact exists_alike_of_isSet hw hk h
  · exact Keyspace.writeAll_filter Write.key?_of_not_fills rfl writes

/-- A notification about a room, with a context that looks like the rest of a key. -/
def knock (category : Category) (context : String) : Notification where
  category := category
  alert := ⟨"k", []⟩
  collapseKey := some context

/-- Writes for keys that are almost the same. -/
def neighbours : List Write :=
  [.sent ⟨7, knock .roomInvite "x", 0⟩, .stored 7 ⟨0, 1, .newFollower, ∅⟩ 1, .sent ⟨7, knock .roomJoined "invite:x", 2⟩,
    .sent ⟨-7, knock .roomJoined "x", 3⟩]

/-- None of them is about the activity in the room itself. -/
theorem keys_apart_neighbours : Cooldown.window? ⟨60, 60⟩ 7 (knock .roomJoined "x") =
      some ⟨Cooldown.key 7 .roomActivity "x", 60⟩ ∧
    Keyspace.writeAll (fun _ => none) ⟨60, 60⟩ 3 neighbours (Cooldown.key 7 .roomActivity "x") = none ∧
    Keyspace.writeAll (fun _ => none) ⟨60, 60⟩ 3 neighbours (History.key (-7)) = none := by
  obtain ⟨-, -, -, h⟩ := keys_apart
  obtain ⟨hmarks, hfills⟩ := h (fun _ => none) ⟨60, 60⟩ 3 neighbours
  have hmarked : neighbours.filter (·.marks 7 (knock .roomJoined "x")) = [] := by decide +kernel
  have hfilled : neighbours.filter (·.fills (-7)) = [] := by decide +kernel
  refine ⟨rfl, (hmarks 7 (knock .roomJoined "x") _ rfl).1.trans ?_, (hfills (-7)).trans ?_⟩
  · rw [hmarked]
    rfl
  · rw [hfilled]
    rfl

end Redis

end Herald
