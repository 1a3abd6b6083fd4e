import Herald.Call

/-!
# Audience

Who should hear about an event, with their preferences. A user without a settings row has the
default preferences, and a missing list is an empty one; only a real failure of a lookup is an
error.

* `welcomers`: recently active users first, then the greeters, nobody twice and not the newcomer.

Here are `targets` of the target resolver (`Resolver.resolve`) and its lookups `user`, `followers`
and `welcomers`.
-/

namespace Herald

/-- Who knows what users want to hear about. -/
structure SettingsStore where
  /-- To a lookup of the user at a position of a list. -/
  user : Nat → UserId → Reply StoreError Recipient
  followers : UserId → Reply StoreError (List Recipient)
  /-- Most recently active first. -/
  activeUsers : Int64 → Reply StoreError (List Recipient)

/-- Works out the recipients of events. -/
structure Resolver where
  settings : SettingsStore
  /-- Users who hear about every newcomer, in order. -/
  greeters : List UserId
  /-- How many recently active users hear about a newcomer; nobody if it is negative. -/
  recentLimit : Int64
  limit : Limit

namespace Resolver

/-- What a lookup found; `absent` if there is no row. -/
def orAbsent {α : Type} (absent : α) (blame : Failure → ResolutionError) :
    Except StoreError α → Except ResolutionError α
  | .ok a => .ok a
  | .error .notFound => .ok absent
  | .error (.failed cause) => .error (blame cause)

/-- The preferences of the user at a position of a list. -/
def user (r : Resolver) (position : Nat) (id : UserId) : ExceptT ResolutionError Timed Recipient :=
  ExceptT.mk do
    let answer ← Timed.call r.limit "settings lookup" (.settings id) (r.settings.user position id)
    pure (orAbsent (.withDefaults id) (.settings id) answer)

/-- The preferences of a user's followers. -/
def followers (r : Resolver) (id : UserId) : ExceptT ResolutionError Timed (List Recipient) :=
  ExceptT.mk do
    let answer ← Timed.call r.limit "follower settings lookup" (.followers id)
      (r.settings.followers id)
    pure (orAbsent [] (.followers id) answer)

/-- The preferences of recently active users. -/
def activeUsers (r : Resolver) : ExceptT ResolutionError Timed (List Recipient) :=
  ExceptT.mk do
    let answer ← Timed.call r.limit "active user lookup" (.activeUsers r.recentLimit)
      (r.settings.activeUsers r.recentLimit)
    pure (orAbsent [] .activeUsers answer)

/-- The recipients whose users have not been met before, each user once. -/
def unseen : List UserId → List Recipient → List Recipient
  | _, [] => []
  | seen, r :: rest =>
    if r.user ∈ seen then unseen seen rest else r :: unseen (r.user :: seen) rest

/-- Those who may welcome a newcomer: recently active users, then the greeters, each user once and
not the newcomer. -/
def welcomers (r : Resolver) (newcomer : UserId) : ExceptT ResolutionError Timed (List Recipient) := do
  let active ← r.activeUsers
  let answers ← ExceptT.lift (Timed.all (r.greeters.zipIdx.map fun p => (r.user p.2 p.1).run))
  let greeters ← ExceptT.mk (pure (answers.mapM id))
  pure (unseen [newcomer] (active.take r.recentLimit.toInt.toNat ++ greeters))

/-- The recipients of an event. -/
def resolve (r : Resolver) : Event → ExceptT ResolutionError Timed (List Recipient)
  | .newFollower _ followee => do
    let recipient ← r.user 0 followee
    pure ([recipient].filter (·.wantsFollows))
  | .roomCreation _ creator _ => do
    let recipients ← r.followers creator
    pure (recipients.filter (·.wantsRooms))
  | .roomJoin _ member _ => do
    let recipients ← r.followers member
    pure (recipients.filter (·.wantsRooms))
  | .roomInvite _ _ guest => do
    let recipient ← r.user 0 guest
    pure [recipient]
  | .welcomeRoom user _ => do
    let recipients ← r.welcomers user
    pure (recipients.filter (·.wantsWelcomes))
  | .followRecommendations user _ => do
    let recipient ← r.user 0 user
    pure [recipient]

end Resolver

end Herald
