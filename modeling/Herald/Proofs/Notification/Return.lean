import Herald.Proofs.Gateway.Envelope
import Herald.Proofs.History

/-!
# What is kept or sent comes back

An entry that was stored is the first one that is read from the history, and a device finds the
notification in the request that brought it.

* `History.read_store`: what is read right after an entry was stored.
* `Envelope.notification?_of_readable`: what a device finds in a request.
* `records_come_back`: both, with the texts on their own.
-/

namespace Herald

namespace History

variable {cap : Nat} {limit : Limit} {write reply : Reply Failure Unit} {user : UserId}
  {n : StoredNotification}

/-- The entry that was just stored comes first; the oldest one may have had to go. -/
theorem read_store (h : n.Readable) (hc : 0 < cap) (hw : write.lands limit = true)
    (hr : reply.lands limit = true) (s : ClockedCache) :
    (read limit reply user (store cap limit write user n s).2.2).1 =
      .ok (n :: ofTexts ((s.cache.entries (key user)).take (cap - 1))) := by
  obtain ⟨cap, rfl⟩ := Nat.exists_eq_add_one.2 hc
  rw [store_of_lands hw, read_of_lands hr, Cache.entries_push, if_pos rfl, List.take_succ_cons,
    ofTexts, List.filterMap_cons_some (StoredNotification.decode?_encode h)]
  rfl

end History

namespace Gateway.Envelope

/-- The notification that a device finds in the text of a request. -/
def notification? (request : String) : Option Notification := do
  match (← Source.ofText? request).valuesAt ["message", "data", payloadKey] with
  | [.text (some payload)] => Notification.decode? payload
  | _ => none

theorem notification?_of_readable {n : Notification} (h : n.Readable) (token : DeviceToken) :
    notification? (ofNotification token n).toJson.compact =
      some { n with collapseKey := none, origin := none } := by
  have e : (ofNotification token n).request.valuesAt ["message", "data", payloadKey] =
      [.text (some n.encode)] := valuesAt_payload _
  rw [notification?, ofText?_toJson, Option.bind_eq_bind, Option.bind_some, e]
  exact Notification.decode?_encode h

end Gateway.Envelope

/-- Entries of histories and notifications are what is read from their texts, wherever the texts have
been: in a history, or in the data of a request. A notification's text leaves out its collapse key
and its origin. -/
theorem records_come_back :
    (∀ n : StoredNotification, n.Readable → StoredNotification.decode? n.encode = some n) ∧
    (∀ (cap : Nat) (limit : Limit) (write reply : Reply Failure Unit) (user : UserId)
      (n : StoredNotification) (s : ClockedCache), n.Readable → 0 < cap →
      write.lands limit = true → reply.lands limit = true →
      (History.read limit reply user (History.store cap limit write user n s).2.2).1 =
        .ok (n :: History.ofTexts ((s.cache.entries (History.key user)).take (cap - 1)))) ∧
    (∀ n : Notification, n.Readable →
      Notification.decode? n.encode = some { n with collapseKey := none, origin := none }) ∧
    (∀ (token : DeviceToken) (n : Notification), n.Readable →
      Gateway.Envelope.notification? (Gateway.Envelope.ofNotification token n).toJson.compact =
        some { n with collapseKey := none, origin := none }) :=
  ⟨fun _ => StoredNotification.decode?_encode,
    fun _ _ _ _ _ _ s h hc hw hr => History.read_store h hc hw hr s,
    fun _ => Notification.decode?_encode,
    fun token _ h => Gateway.Envelope.notification?_of_readable h token⟩

/-- Arguments of every kind, with the bounds of integers and characters that have escapes. -/
def mixedArguments : Arguments where
  members := [("\x00\"\\", .text "é\n😀/"),
    ("a", .list [.null, .bool true, .integer (-9223372036854775808), .integer 18446744073709551615]),
    ("b", .object [("", .list []), ("c", .object [])])]
  canonical := by decide +kernel

theorem records_come_back_mixed :
    let n : StoredNotification := ⟨-1, 7, .welcomeRoom, mixedArguments⟩
    let m : Notification := ⟨.roomInvite, ⟨"k", ["\t", ""]⟩, mixedArguments, some "r", some 7⟩
    (n.Readable ∧ m.Readable) ∧ StoredNotification.decode? n.encode = some n ∧
    (History.read (.ofMillis 10) ⟨10, .ok ()⟩ 7
      (History.store 1 (.ofMillis 10) ⟨3, .ok ()⟩ 7 n {}).2.2).1 = .ok [n] ∧
    Notification.decode? m.encode = some { m with collapseKey := none, origin := none } ∧
    Gateway.Envelope.notification? (Gateway.Envelope.ofNotification "t" m).toJson.compact =
      some { m with collapseKey := none, origin := none } := by
  intro n m
  have hn : n.Readable := by decide +kernel
  have hm : m.Readable := by decide +kernel
  obtain ⟨stored, kept, sent, found⟩ := records_come_back
  exact ⟨⟨hn, hm⟩, stored n hn, kept 1 _ _ _ 7 n {} hn (by decide) (by decide) (by decide),
    sent m hm, found "t" m hm⟩

end Herald
