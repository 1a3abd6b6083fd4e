import Herald.Proofs.Keyspace
import Herald.Proofs.Redis
import Mathlib.Data.List.Induction

/-!
# What the cache server replies

The cache promises that a key is found as long as its mark lives, and that a list holds what was put in front of
it. The server says so in its replies, and a reply is read for what was asked. That a list is asked for where
there is a mark is an error, and it does not happen.

* `Command.words_injective`: the server can tell commands apart.
* `Keyspace.existsReply_answer` up to `Keyspace.pushReply_answer`: what each question comes to, told by what stands
  under the key.
* `Keyspace.listed_run`: lists fare under these commands as they do in a `Store`.
* `Keyspace.rangeReply_writeAll`: the history that is read is what was stored for its user, whatever else was
  written.
* `Keyspace.existsReply_writeAll`: a cooldown that is asked for is the one that was recorded last.
-/

namespace Herald.Redis

/-! ## Commands -/

namespace Command

/-- Different commands have different words. -/
theorem words_injective {c c' : Command} (h : c.words = c'.words) : c = c' := by
  cases c <;> cases c' <;> simp only [words, List.cons.injEq, reduceCtorEq, and_false, false_and, and_true,
    String.reduceEq, true_and] at h <;> grind [Decimal.ofNat_injective, Decimal.ofId_injective]

end Command

namespace Keyspace

variable {now cap : Nat} {k : Keyspace} {key value : String} {texts : List String}

/-! ## Replies -/

/-- What the server says of a command for lists where there is no list. -/
def wrongType : String := "WRONGTYPE Operation against a key holding the wrong kind of value"

/-- What the server says of the list under a key. Where there is nothing the list is empty. -/
def ofList (now : Nat) (k : Keyspace) (key : String) (say : List String → Reply) : Reply :=
  match (k key).filter (·.isCurrent now) with
  | some (.mark _) => .error wrongType
  | some (.list texts) => say texts
  | none => say []

/-- What the server says to a command. -/
def say (now : Nat) (k : Keyspace) : Command → Reply
  | .ping => .status "PONG"
  | .keyExists key => .integer (if k.isSet now key then 1 else 0)
  | .setExpiring _ seconds =>
    match Entry.expiry? now seconds with
    | some _ => .status "OK"
    | none => .error "ERR invalid expire time in \x27setex\x27 command"
  | .multi | .exec => .status "OK"
  | .leftPush key _ => k.ofList now key fun texts => .integer (texts.length + 1)
  | .trim key _ _ => k.ofList now key fun _ => .status "OK"
  | .range key first last => k.ofList now key fun texts =>
      .list ((Store.trim texts first.toInt last.toInt).map .text)

/-- What the server says to commands, one after the other. -/
def sayAll (now : Nat) (k : Keyspace) : List Command → List Reply
  | [] => []
  | c :: commands => k.say now c :: (run now k c).sayAll now commands

/-- The reply to what is asked. To a transaction it consists of what the server says to each of its commands. -/
def answer (now : Nat) (k : Keyspace) : List Command → Option Reply
  | .multi :: commands => some (.list (k.sayAll now (commands.takeWhile (· ≠ .exec))))
  | commands => (k.sayAll now commands).getLast?

theorem pingReply_answer : (k.answer now [.ping]).map pingReply = some (.ok ()) := rfl

theorem existsReply_answer :
    (k.answer now (existsCommands key)).map existsReply = some (.ok (k.isSet now key)) := by
  show some (existsReply (.integer (if k.isSet now key then 1 else 0))) = _
  cases k.isSet now key <;> rfl

theorem lifetime_pos (ms : Nat) : 0 < lifetime ms := Nat.le_max_right ..

/-- A key is set if the time at which it runs out can be told. -/
theorem setReply_answer {ms : Nat} (h : now + lifetime ms * 1000 < twoPow 63) :
    (k.answer now (setCommands key ms)).map setReply = some (.ok ()) ∧
      runAll now k (setCommands key ms) key = some (.mark (now + lifetime ms * 1000)) := by
  have he : Entry.expiry? now (lifetime ms) = some (now + lifetime ms * 1000) := if_pos ⟨lifetime_pos ms, h⟩
  constructor
  · show some (setReply (k.say now (.setExpiring key (lifetime ms)))) = _
    rw [say, he]
    rfl
  · show run now k (.setExpiring key (lifetime ms)) key = _
    simp only [run, Command.key?, Function.update_self, Command.effect, he]

/-! ## Lists -/

/-- What stands under a key for a list of texts. A list is never empty. -/
def listed (texts : List String) : Option Entry := if texts.isEmpty then none else some (.list texts)

theorem filter_listed (now : Nat) (texts : List String) :
    (listed texts).filter (·.isCurrent now) = listed texts := by
  cases texts <;> rfl

theorem ofList_listed (h : k key = listed texts) (say : List String → Reply) :
    k.ofList now key say = say texts := by
  rw [ofList, h, filter_listed]
  cases texts <;> rfl

theorem ofList_mark {ends : Nat} (h : k key = some (.mark ends)) (hnow : now < ends)
    (say : List String → Reply) : k.ofList now key say = .error wrongType := by
  have hf : (k key).filter (·.isCurrent now) = some (.mark ends) := by
    rw [h]
    exact Option.filter_some_pos (decide_eq_true hnow)
  rw [ofList, hf]

theorem mapM_asText (texts : List String) : (texts.map Reply.text).mapM Reply.asText = .ok texts := by
  induction texts with
  | nil => rfl
  | cons t texts ih =>
    rw [List.map_cons, List.mapM_cons, ih]
    rfl

/-- A list is read as a whole. -/
theorem rangeReply_answer (h : k key = listed texts) :
    (k.answer now (rangeCommands key)).map rangeReply = some (.ok texts) := by
  have htrim : Store.trim texts 0 (-1) = texts := by
    rw [Store.trim_zero, if_pos (by decide)]
    exact List.take_of_length_le (by omega)
  show some (rangeReply (k.ofList now key fun texts => .list ((Store.trim texts 0 (-1)).map .text))) = _
  rw [ofList_listed h, htrim, rangeReply, Reply.asTexts, mapM_asText]
  rfl

/-- It is an error to read a list where there is a mark. -/
theorem rangeReply_mark {ends : Nat} (h : k key = some (.mark ends)) (hnow : now < ends) :
    (k.answer now (rangeCommands key)).map rangeReply =
      some (.error (.reported s!"Failed to read list: {wrongType}")) := by
  show some (rangeReply (k.ofList now key _)) = _
  rw [ofList_mark h hnow]
  rfl

theorem effect_leftPush (h : k key = listed texts) :
    run now k (.leftPush key value) key = listed (value :: texts) := by
  simp only [run, Command.key?, Function.update_self, Command.effect, h, filter_listed]
  cases texts <;> rfl

theorem effect_trim (h : k key = listed texts) (first last : Int64) :
    run now k (.trim key first last) key = listed (Store.trim texts first.toInt last.toInt) := by
  simp only [run, Command.key?, Function.update_self, Command.effect, h, filter_listed]
  cases texts with
  | nil => simp [listed, Store.trim]
  | cons t texts => rfl

/-- A text is put in front of a list, of which so many texts are kept. -/
theorem pushReply_answer (h : k key = listed texts) (hpos : 1 ≤ cap) (hcap : cap ≤ twoPow 63) :
    (k.answer now (pushCommands key value cap)).map pushReply = some (.ok ()) ∧
      runAll now k (pushCommands key value cap) key = listed ((value :: texts).take cap) := by
  have hpushed : run now k (.leftPush key value) key = listed (value :: texts) := effect_leftPush h
  constructor
  · show some (pushReply (.list [k.ofList now key _, (run now k (.leftPush key value)).ofList now key _])) = _
    rw [ofList_listed h, ofList_listed hpushed]
    rfl
  · show run now (run now k (.leftPush key value)) (.trim key 0 (lastOf cap)) key = _
    have hrange : cap < twoPow 64 := by
      rw [twoPow_63] at hcap
      rw [twoPow_64]
      omega
    rw [effect_trim hpushed, show (0 : Int64).toInt = 0 from rfl, trim_lastOf _ hpos hrange, if_pos hcap]

/-- Where there are lists only, commands make of them what they make of the lists of a store. -/
theorem listed_run {s : Store} (h : ∀ key, k key = listed (s.get key)) {c : Command}
    (hc : ∀ key seconds, c ≠ .setExpiring key seconds) (key : String) :
    run now k c key = listed ((s.run c).get key) := by
  by_cases hkey : c.key? = some key
  · cases c with
    | leftPush key' value =>
      obtain rfl : key' = key := Option.some.inj hkey
      rw [effect_leftPush (h key'), Store.run, Store.get_put, if_pos rfl]
    | trim key' first last =>
      obtain rfl : key' = key := Option.some.inj hkey
      rw [effect_trim (h key'), Store.run, Store.get_put, if_pos rfl]
    | setExpiring key' seconds => exact absurd rfl (hc key' seconds)
    | keyExists key' | range key' first last =>
      obtain rfl : key' = key := Option.some.inj hkey
      exact (congrFun (Function.update_eq_self key' k) key').trans (h key')
    | ping | multi | exec => cases hkey
  · rw [run_of_ne now k hkey, h]
    cases c with
    | leftPush key' value =>
      rw [Store.run, Store.get_put, if_neg fun e => hkey (congrArg some e.symm)]
    | trim key' first last =>
      rw [Store.run, Store.get_put, if_neg fun e => hkey (congrArg some e.symm)]
    | _ => rfl

/-! ## What is found after some writes -/

variable {d : Cooldown.Durations} {user : UserId} {n : Notification} {w : Cooldown.Window} {writes : List Write}

/-- The text that is put in front of the history of a user. -/
def textFor? (user : UserId) : Write → Option String
  | .sent _ => none
  | .stored user' entry _ => if user' = user then some entry.encode else none

theorem textFor?_of_not_fills {write : Write} (h : write.fills user = false) : textFor? user write = none := by
  cases write with
  | sent r => rfl
  | stored user' entry time => exact if_neg (of_decide_eq_false h)

theorem take_append_take (cap : Nat) (l m : List String) : (l ++ m.take cap).take cap = (l ++ m).take cap := by
  rw [List.take_append, List.take_append, List.take_take, Nat.min_eq_left (Nat.sub_le ..)]

/-- A history consists of the latest texts that were stored for its user, newest first. -/
theorem history_writeAll (hpos : 1 ≤ cap) (hcap : cap ≤ twoPow 63) (h : k (History.key user) = listed texts)
    (hlength : texts.length ≤ cap) : k.writeAll d cap writes (History.key user) =
      listed (((writes.filterMap (textFor? user)).reverse ++ texts).take cap) := by
  induction writes generalizing k texts with
  | nil =>
    rw [List.filterMap_nil, List.reverse_nil, List.nil_append, List.take_of_length_le hlength]
    exact h
  | cons write writes ih =>
    show (runAll write.time k (write.commands d cap)).writeAll d cap writes _ = _
    cases hf : write.fills user with
    | false =>
      rw [List.filterMap_cons_none (textFor?_of_not_fills hf)]
      exact ih ((runAll_of_ne write.time k (Write.key?_of_not_fills write hf)).trans h) hlength
    | true =>
      cases write with
      | sent r => cases hf
      | stored user' entry time =>
        obtain rfl : user' = user := of_decide_eq_true hf
        have htext : textFor? user' (.stored user' entry time) = some entry.encode := if_pos rfl
        rw [List.filterMap_cons_some htext, List.reverse_cons, List.append_assoc, List.singleton_append,
          ← take_append_take]
        exact ih (pushReply_answer h hpos hcap).2 (List.length_take_le ..)

/-- Whatever else is written, a history can be read, and it is what was stored for its user. -/
theorem rangeReply_writeAll (hpos : 1 ≤ cap) (hcap : cap ≤ twoPow 63) (h : k (History.key user) = none) :
    ((k.writeAll d cap writes).answer now (rangeCommands (History.key user))).map rangeReply =
      some (.ok ((writes.filterMap (textFor? user)).reverse.take cap)) := by
  rw [← List.append_nil (List.reverse _)]
  exact rangeReply_answer (history_writeAll hpos hcap h (Nat.zero_le _))

/-- Under the key of a cooldown stands the latest mark of those that share it. -/
theorem cooldown_writeAll (hw : Cooldown.window? d user n = some w) (h : k w.key = none)
    (htime : ∀ write ∈ writes, write.time + lifetime w.ttl * 1000 < twoPow 63) :
    k.writeAll d cap writes w.key = (writes.filter (·.marks user n)).getLast?.map fun write =>
      .mark (write.time + lifetime w.ttl * 1000) := by
  induction writes using List.reverseRecOn with
  | nil => exact h
  | append_singleton writes write ih =>
    have ih := ih fun v hv => htime v (List.mem_append_left _ hv)
    have hlast : k.writeAll d cap (writes ++ [write]) =
        runAll write.time (k.writeAll d cap writes) (write.commands d cap) := List.foldl_append ..
    rw [hlast, List.filter_append]
    cases hm : write.marks user n with
    | false =>
      rw [List.filter_cons_of_neg (by simp [hm]), List.filter_nil, List.append_nil, ← ih]
      exact runAll_of_ne write.time _ (Write.key?_of_not_marks hw write hm)
    | true =>
      rw [List.filter_cons_of_pos hm, List.filter_nil, List.getLast?_concat]
      cases write with
      | stored user' entry time => cases hm
      | sent r =>
        have ha : r.Alike user n := of_decide_eq_true hm
        obtain ⟨w', hw'⟩ := ha.window hw
        have hkey : w.key = w'.key := (Cooldown.window_key_eq_iff hw hw' r.time).2 ha
        have hcommands : (Write.sent r).commands d cap = setCommands w.key w.ttl := by
          rw [Write.commands, hw', hkey, Cooldown.ttl_eq_of_key_eq hw hw' hkey]
          rfl
        rw [hcommands]
        exact (setReply_answer (htime _ (List.mem_append_right _ (List.mem_singleton_self _)))).2

/-- A cooldown is found as long as the mark lives that was recorded last for what shares it. -/
theorem existsReply_writeAll (hw : Cooldown.window? d user n = some w) (h : k w.key = none)
    (htime : ∀ write ∈ writes, write.time + lifetime w.ttl * 1000 < twoPow 63) :
    ((k.writeAll d cap writes).answer now (existsCommands w.key)).map existsReply =
      some (.ok ((writes.filter (·.marks user n)).getLast?.any fun write =>
        now < write.time + lifetime w.ttl * 1000)) := by
  rw [existsReply_answer, isSet, cooldown_writeAll hw h htime]
  cases (writes.filter (·.marks user n)).getLast? with
  | none => rfl
  | some write =>
    by_cases hnow : now < write.time + lifetime w.ttl * 1000 <;> simp [Entry.isCurrent, hnow]

end Keyspace

end Herald.Redis
