import Herald.Cache
import Herald.Notification.Codec

/-!
# History

The latest notifications of each user, newest first. An entry that is no history entry is passed
over when the history is read; it still takes up one of the places.

Here are `store` and `notifications` (`read`) of the history store, and `history_key` (`key`).
-/

namespace Herald.History

/-- The key of a user's history. -/
def key (user : UserId) : String := s!"notifications:{Decimal.ofId user}"

/-- What is said when a call to the cache overruns. -/
def writeName : String := "history write"

/-- What is said when a call to the cache overruns. -/
def readName : String := "history read"

/-- Puts an entry in front of a user's history, which keeps `cap` entries. -/
def store (cap : Nat) (limit : Limit) (reply : Reply Failure Unit) (user : UserId)
    (entry : StoredNotification) (s : ClockedCache) : Except Failure Unit × List Call × ClockedCache :=
  let r := s.perform limit writeName reply fun _ c => ((), c.push (key user) entry.encode cap)
  (r.1, [.pushEntry (key user) cap], r.2)

/-- The entries among texts. -/
def ofTexts (texts : List String) : List StoredNotification :=
  texts.filterMap StoredNotification.decode?

/-- A user's history. -/
def read (limit : Limit) (reply : Reply Failure Unit) (user : UserId) (s : ClockedCache) :
    Except Failure (List StoredNotification) × List Call × ClockedCache :=
  let r := s.perform limit readName reply fun _ c => (ofTexts (c.entries (key user)), c)
  (r.1, [.readEntries (key user)], r.2)

end Herald.History
