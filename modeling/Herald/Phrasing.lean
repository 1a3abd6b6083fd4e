import Herald.Failure
import Herald.Notification
import Herald.Room

/-!
# Phrasing

How the template of a notification follows from who is in a room.

* `leadWith`: the actor first, the others in the room's order.
* `pluralise`: up to three names, and how many more there are.

Here are `room_key` (`roomKey`), `lead_with` (`leadWith`) and `pluralize` (`pluralise`).
-/

namespace Herald.Phrasing

/-- The template of a room notification, up to the number of members. -/
def roomKey (verb : String) (named : Bool) : String :=
  if named then s!"{verb}_named_room_with" else s!"{verb}_room_with"

/-- The members with the first entry of `actor` in front; `none` if the actor is not among them. -/
def leadWith (members : List Member) (actor : UserId) : Option (List Member) :=
  (members.find? (·.id == actor)).map fun m => m :: members.eraseP (·.id == actor)

/-- The most names that are shown. -/
def maxShown : Nat := 3

/-- The alert for `count` people of whom `names` come first: it shows up to three names, after the
leading argument if there is one, and then says how many more there are. -/
def pluralise (stem : String) (leading : Option String) (names : List String) (count : Nat) :
    Except BuildError Alert :=
  let shown := min count maxShown
  if count = 0 ∨ names.length < shown then .error (.notEnoughMembers (max shown 1) names.length)
  else
    let arguments := leading.toList ++ names.take shown
    if maxShown < count then
      .ok ⟨s!"{stem}_{Decimal.ofNat maxShown}_and_more", arguments ++ [Decimal.ofNat (count - maxShown)]⟩
    else .ok ⟨s!"{stem}_{Decimal.ofNat count}", arguments⟩

end Herald.Phrasing
