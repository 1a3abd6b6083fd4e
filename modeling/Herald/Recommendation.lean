import Herald.Call

/-!
# Follow recommendations

A worker works out for one user which accounts to follow and publishes them as an event, which then
takes the way of all events. Nothing is published if there is nobody to recommend, or if the
recommendations are not known.

* `draft`: the event that is to be published for a user.
* `recommend`: the event that is published for a user, if the publisher takes it.

Together they are `process` of the recommendation worker.
-/

namespace Herald.Recommendation

/-- What recommendations are made from. -/
structure Settings where
  /-- Where the events are published. -/
  queue : String
  /-- How many accounts are recommended at most. -/
  size : Int64
  limit : Limit

/-- How the collaborators reply to calls that start now. -/
structure World where
  recommendations : UserId → Int64 → Reply Failure (List UserId)
  publisher : Reply Failure Unit

/-- What is said when the recommendations overrun. -/
def lookupName : String := "follow recommendations"

/-- What is said when a publication overruns. -/
def publishName : String := "recommendation publish"

/-- The event that is to be published for a user, if there is one. -/
def draft (settings : Settings) (w : World) (user : UserId) : Timed (Option Event) := do
  match ← Timed.call settings.limit lookupName (.recommend user settings.size)
      (w.recommendations user settings.size) with
  | .error _ => pure none
  | .ok [] => pure none
  | .ok accounts => pure (some (.followRecommendations user accounts))

/-- The event published for a user, if one is. -/
def recommend (settings : Settings) (w : World) (user : UserId) : Timed (Option Event) := do
  match ← draft settings w user with
  | none => pure none
  | some e =>
    match ← Timed.call settings.limit publishName (.publish settings.queue e) w.publisher with
    | .error _ => pure none
    | .ok () => pure (some e)

end Herald.Recommendation
