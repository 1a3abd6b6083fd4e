import Herald.Proofs.Content

/-!
# What is looked up for an event

The builders ask for names, and for the room of an event unless it is a private one; whoever works out
the recipients asks for preferences. What is built depends on nothing else.

* `Timed.Hereditary`: what goes over to computations from their calls; what they ask for does, and
  that they take no time.
* `Registry.hereditary_build`, `Resolver.hereditary_resolve`: the calls made for an event.
* `Registry.build_congr`: what is built from directories that agree on what is asked.
-/

namespace Herald

variable {ε α β : Type}

/-! ## What goes over to computations from their calls -/

namespace Timed

/-- What goes over to a computation from its parts. -/
structure Hereditary (Q : {α : Type} → Timed α → Prop) : Prop where
  pure {α : Type} (a : α) : Q (pure a : Timed α)
  bind {α β : Type} {t : Timed α} {f : α → Timed β} : Q t → (∀ a, Q (f a)) → Q (t >>= f)
  both {α β : Type} {t : Timed α} {u : Timed β} : Q t → Q u → Q (t.both u)
  all {α : Type} {ts : List (Timed α)} : (∀ t ∈ ts, Q t) → Q (all ts)

namespace Hereditary

variable {Q : {α : Type} → Timed α → Prop}

/-- Of a computation that may fail, later parts may be left out. -/
theorem run_bind (q : Hereditary Q) {x : ExceptT ε Timed α} {f : α → ExceptT ε Timed β}
    (hx : Q x.run) (hf : ∀ a, Q (f a).run) : Q (x >>= f).run := by
  refine q.bind hx fun r => ?_
  cases r with
  | ok a => exact hf a
  | error cause => exact q.pure _

theorem lift (q : Hereditary Q) {t : Timed α} (h : Q t) :
    Q (ExceptT.lift t : ExceptT ε Timed α).run :=
  q.bind h fun _ => q.pure _

end Hereditary

/-- A computation makes no other calls. -/
def CallsOnly (P : Call → Prop) (t : Timed α) : Prop := ∀ c ∈ t.calls, P c

theorem hereditary_callsOnly (P : Call → Prop) : Hereditary (CallsOnly P) where
  pure _ _ h := nomatch h
  bind ht hf c hc := (List.mem_append.1 hc).elim (ht c) (hf _ c)
  both ht hu c hc := (List.mem_append.1 hc).elim (ht c) (hu c)
  all {α ts} h := by
    induction ts with
    | nil => exact fun _ h => nomatch h
    | cons t ts ih =>
      intro c hc
      rcases List.mem_append.1 hc with hc | hc
      · exact h t (List.mem_cons_self ..) c hc
      · exact ih (fun u hu => h u (List.mem_cons_of_mem _ hu)) c hc

theorem callsOnly_call [OfFailure ε] {P : Call → Prop} {limit : Limit} {operation : String} {c : Call}
    {r : Reply ε α} (h : P c) : CallsOnly P (Timed.call limit operation c r) :=
  fun _ hc => List.mem_singleton.1 hc ▸ h

/-- A computation takes no time. -/
def Instant (t : Timed α) : Prop := t.elapsed = 0

theorem hereditary_instant : Hereditary Instant where
  pure _ := rfl
  bind ht hf := Nat.add_eq_zero_iff.2 ⟨ht, hf _⟩
  both ht hu := Nat.max_eq_zero_iff.2 ⟨ht, hu⟩
  all h := Nat.le_zero.1 (elapsed_all_le fun t ht => Nat.le_of_eq (h t ht))

theorem instant_call [OfFailure ε] {limit : Limit} {operation : String} {c : Call} {r : Reply ε α}
    (h : r.delay = 0) : Instant (Timed.call limit operation c r) := by
  show (r.within limit operation).delay = 0
  rw [Reply.within, if_pos (h ▸ Nat.zero_le _), h]

end Timed

open Timed

/-! ## Preparations -/

namespace Content.Lookups

variable {Q : {α : Type} → Timed α → Prop} {l : Lookups} {operation : String} {c : Call}
  {r : Reply Failure (Option α)} {absent : BuildError}

theorem hereditary_ask (q : Hereditary Q) (h : Q (Timed.call l.limit operation c r)) :
    Q (l.ask operation c r absent).run := by
  refine q.bind h fun answer => ?_
  rcases answer with cause | (_ | a) <;> exact q.pure _

/-- What a lookup comes to. -/
theorem value_ask : (l.ask operation c r absent).run.value =
    match (r.within l.limit operation).answer with
    | .ok (some a) => .ok a
    | .ok none => .error absent
    | .error cause => .error (.lookup cause) := by
  have hb : (l.ask operation c r absent).run = Timed.call l.limit operation c r >>= fun
      | .ok (some a) => pure (.ok a)
      | .ok none => pure (.error absent)
      | .error cause => pure (.error (.lookup cause)) := rfl
  have hv : (Timed.call l.limit operation c r).value = (r.within l.limit operation).answer := rfl
  rw [hb, value_bind, hv]
  rcases (r.within l.limit operation).answer with cause | (_ | a) <;> rfl

end Content.Lookups

namespace Registry

open Content Lookups

variable {Q : {α : Type} → Timed α → Prop} {directories directories' : Directories} {limit : Limit}
  {e : Event}

/-- What is built takes over from the lookups of names, and of the room of an event that is not
private. -/
theorem hereditary_build (q : Hereditary Q)
    (hn : ∀ position user, Q (Timed.call limit "display name lookup" (.displayName user)
      (directories.users position user)))
    (hr : ∀ id, e.room? = some id → e.isPrivate = false →
      Q (Timed.call limit "room lookup" (.room id) (directories.rooms id))) :
    Q ((standard directories limit).build e).run := by
  have hname (position : Nat) (user : UserId) :
      Q (Lookups.name ⟨directories, limit⟩ position user).run :=
    hereditary_ask q (hn position user)
  cases e with
  | newFollower follower followee => exact q.run_bind (hname _ _) fun _ => q.pure _
  | roomCreation id actor visibility | roomJoin id actor visibility =>
    cases visibility with
    | «private» => exact q.pure _
    | «public» =>
      exact q.run_bind (hereditary_ask q (hr id rfl rfl)) fun _ =>
        q.run_bind (q.pure _) fun _ => q.pure _
  | roomInvite id host guest =>
    have hroom : Q (Lookups.room ⟨directories, limit⟩ id).run := hereditary_ask q (hr id rfl rfl)
    exact q.run_bind (q.lift (q.both (hname _ _) hroom)) fun _ =>
      q.run_bind (q.pure _) fun _ => q.run_bind (q.pure _) fun _ => q.pure _
  | welcomeRoom user id => exact q.run_bind (hname _ _) fun _ => q.pure _
  | followRecommendations user accounts =>
    refine q.run_bind (q.lift (q.all fun t ht => ?_)) fun _ =>
      q.run_bind (q.pure _) fun _ => q.run_bind (q.pure _) fun _ => q.pure _
    obtain ⟨p, -, rfl⟩ := List.mem_map.1 ht
    exact hname _ _

/-- Names are asked for, and the room of an event that is not private. -/
theorem callsOnly_build {P : Call → Prop} (hn : ∀ user, P (.displayName user))
    (hr : ∀ id, e.room? = some id → e.isPrivate = false → P (.room id)) :
    CallsOnly P ((standard directories limit).build e).run :=
  hereditary_build (hereditary_callsOnly P) (fun _ user => callsOnly_call (hn user))
    fun id he hp => callsOnly_call (hr id he hp)

/-- What is built depends on the names of users, and on the room of an event that is not private. -/
theorem build_congr (hu : directories.users = directories'.users)
    (hr : ∀ id, e.room? = some id → e.isPrivate = false →
      directories.rooms id = directories'.rooms id) :
    (standard directories limit).build e = (standard directories' limit).build e := by
  have hname (position : Nat) (user : UserId) :
      Lookups.name ⟨directories, limit⟩ position user =
        Lookups.name ⟨directories', limit⟩ position user := by
    unfold Lookups.name ask; rw [hu]
  have hroom (id : RoomId) (h : directories.rooms id = directories'.rooms id) :
      Lookups.room ⟨directories, limit⟩ id = Lookups.room ⟨directories', limit⟩ id := by
    unfold Lookups.room ask; rw [h]
  cases e with
  | newFollower follower followee => simp only [build, standard, Event.kind, newFollower, hname]
  | roomCreation id actor visibility | roomJoin id actor visibility =>
    cases visibility with
    | «private» => rfl
    | «public» =>
      simp only [build, standard, Event.kind, membership, hroom id (hr id rfl rfl)]
  | roomInvite id host guest =>
    simp only [build, standard, Event.kind, roomInvite, hname, hroom id (hr id rfl rfl)]
  | welcomeRoom user id => simp only [build, standard, Event.kind, welcomeRoom, hname]
  | followRecommendations user accounts =>
    simp only [build, standard, Event.kind, followRecommendations, hname]

end Registry

namespace Resolver

variable {Q : {α : Type} → Timed α → Prop} {r : Resolver} {e : Event}

/-- Who is told takes over from the lookups of preferences, and of who is active. -/
theorem hereditary_resolve (q : Hereditary Q)
    (hs : ∀ position user, Q (Timed.call r.limit "settings lookup" (.settings user)
      (r.settings.user position user)))
    (hf : ∀ user, Q (Timed.call r.limit "follower settings lookup" (.followers user)
      (r.settings.followers user)))
    (ha : Q (Timed.call r.limit "active user lookup" (.activeUsers r.recentLimit)
      (r.settings.activeUsers r.recentLimit))) : Q (r.resolve e).run := by
  have huser (position : Nat) (id : UserId) : Q (r.user position id).run :=
    q.bind (hs position id) fun _ => q.pure _
  have hfollowers (id : UserId) : Q (r.followers id).run := q.bind (hf id) fun _ => q.pure _
  cases e with
  | newFollower | roomInvite | followRecommendations => exact q.run_bind (huser _ _) fun _ => q.pure _
  | roomCreation | roomJoin => exact q.run_bind (hfollowers _) fun _ => q.pure _
  | welcomeRoom user room =>
    refine q.run_bind ?_ fun _ => q.pure _
    have hactive : Q r.activeUsers.run := q.bind ha fun _ => q.pure _
    refine q.run_bind hactive fun _ =>
      q.run_bind (q.lift (q.all fun t ht => ?_)) fun _ => q.run_bind (q.pure _) fun _ => q.pure _
    obtain ⟨p, -, rfl⟩ := List.mem_map.1 ht
    exact huser _ _

/-- Preferences are asked for, and who is active. -/
theorem callsOnly_resolve {P : Call → Prop} (hs : ∀ user, P (.settings user))
    (hf : ∀ user, P (.followers user)) (ha : ∀ limit, P (.activeUsers limit)) :
    CallsOnly P (r.resolve e).run :=
  hereditary_resolve (hereditary_callsOnly P) (fun _ user => callsOnly_call (hs user))
    (fun user => callsOnly_call (hf user)) (callsOnly_call (ha _))

end Resolver

end Herald
