import Herald.Proofs.Delivery.Chronicle
import Herald.Proofs.Pipeline.Causes

/-!
# Cooldowns of a pipeline

Between the check of a cooldown and its record lie the lookup of the devices and all messages to
them. Two deliveries to one user that overlap in this time do not hear of each other, so that the
user hears twice. Deliveries that do not overlap keep the cooldown between them.

* `not_cooldown_kept`: overlapping deliveries break the cooldown.
* `cooldown_kept_apart`: all others keep it.
-/

namespace Herald.Pipeline

open Delivery (Errand Books Chronicle Fact Happening errandsOf)

variable {settings : Settings} {worlds : Delivery.World → Prop} {w : World} {s t : State} {m : Move}
  {acts : List (World × Move)} {size capacity sinkCapacity : Nat}

/-! ## The chronicle of a pipeline -/

/-- What is seen of a move. -/
def State.facts (settings : Settings) (s : State) (a : World × Move) : List (Nat × Fact) :=
  match a.2 with
  | .deliver worker m => s.delivery.facts settings.delivery a.1.delivery worker m
  | _ => []

/-- The checks, messages and records of a pipeline, latest first, each with its time. -/
def chronicle (settings : Settings) (s : State) (acts : List (World × Move)) : List (Nat × Fact) :=
  seen (State.act settings) (State.facts settings) s acts

/-- The errands that the workers have started agree with what was seen of them. -/
def Chronicled (settings : Settings) (s : State) (facts : List (Nat × Fact)) : Prop :=
  Chronicle settings.delivery facts (errandsOf (jobsOf s.pool.started)) s.delivery.waiting
    s.delivery.flights s.delivery.clock

theorem Chronicled.step {facts : List (Nat × Fact)} (c : Chronicled settings s facts) (d : Deliveries settings worlds size s)
    (h : Step settings w s m t) (hs : s.pool.workers.length = size)
    (hn : (t.pool.started.map (·.2.number)).Nodup)
    (hw : w.delivery.cache.lands settings.delivery.limit = true) :
    Chronicled settings t (s.facts settings (w, m) ++ facts) := by
  have hn : ((errandsOf (jobsOf t.pool.started)).map (·.key)).Nodup :=
    Delivery.nodup_keys (by rw [jobsOf, List.map_map]; exact hn)
  have hseen (hm : ∀ worker d, m ≠ .deliver worker d) : s.facts settings (w, m) = [] := by
    cases m with
    | deliver worker d => exact absurd rfl (hm worker d)
    | _ => rfl
  unfold Chronicled at c ⊢
  cases h.served with
  | calls _ hm hst hd =>
    rw [hseen hm, hst, hd]
    exact c
  | begin hm hst hlt hd =>
    rw [errandsOf_started hst] at hn ⊢
    rw [hseen hm, hd]
    exact c.assign_state hn (by rw [d.workers, ← hs]; exact hlt)
  | deliver hd hst =>
    rw [hst] at hn ⊢
    exact c.move d.books hn hw hd
  | pass hst hd =>
    rw [hst, hd]
    exact c.pass _

/-- The chronicle of a run, with a cache on which one can rely. -/
theorem State.Run.chronicled
    (run : State.Run settings (State.create size capacity sinkCapacity) acts s)
    (hw : ∀ a ∈ acts, a.1.delivery.cache.lands settings.delivery.limit = true) :
    Chronicled settings s (chronicle settings (State.create size capacity sinkCapacity) acts) := by
  induction run with
  | refl =>
    refine Chronicle.perm .nil ?_ ?_
    · exact .of_eq Deliveries.waiting_create.symm
    · exact .of_eq Deliveries.flights_create.symm
  | @step acts s t a run e ih =>
    have hw' : ∀ a ∈ acts, a.1.delivery.cache.lands settings.delivery.limit = true := fun a ha =>
      hw a (List.mem_cons_of_mem _ ha)
    obtain ⟨moves, p⟩ := State.Run.provenance run
    have d := State.Run.deliveries run
    have hstep : Step settings a.1 s a.2 t := .of_step e
    obtain ⟨moves', p'⟩ := p.step hstep
    rw [chronicle, Trace.seen_cons run]
    exact (ih hw').step d hstep p.pool.sized.workers p'.nodup_started (hw a (List.mem_cons_self ..))

/-! ## Cooldowns between deliveries -/

/-- Two errands to one user are about one room and share a cooldown: both are invites, or both are
other activities in the room. -/
structure Alike (e e' : Errand) : Prop where
  user : e'.user = e.user
  limited : e.notification.category ∈ Cooldown.limited ∧ e'.notification.category ∈ Cooldown.limited
  invites : e.notification.category = .roomInvite ↔ e'.notification.category = .roomInvite
  room : ∃ room, e.notification.collapseKey = some room ∧ e'.notification.collapseKey = some room

/-- Of two errands, neither one's check took effect after the other one's record. -/
def Overlap (happened : List (Nat × Fact)) (e e' : Errand) : Prop :=
  ∀ time time' allowed, ¬ [(time', .checked e' allowed), (time, .recorded e)].Sublist happened ∧
    ¬ [(time', .checked e allowed), (time, .recorded e')].Sublist happened

theorem Alike.windows {e e' : Errand} (h : Alike e e') (d : Cooldown.Durations) :
    ∃ window window', e.window? d = some window ∧ e'.window? d = some window' ∧
      window.key = window'.key := by
  obtain ⟨room, hr, hr'⟩ := h.room
  have hw : e.window? d ≠ none := fun hn =>
    Cooldown.window?_eq_none.1 hn ⟨h.limited.1, by rw [hr]; rfl⟩
  have hw' : e'.window? d ≠ none := fun hn =>
    Cooldown.window?_eq_none.1 hn ⟨h.limited.2, by rw [hr']; rfl⟩
  obtain ⟨window, hw⟩ := Option.ne_none_iff_exists'.1 hw
  obtain ⟨window', hw'⟩ := Option.ne_none_iff_exists'.1 hw'
  refine ⟨window, window', hw, hw', (Cooldown.window_key_eq_iff hw hw' 0).2 ?_⟩
  exact ⟨h.user, h.limited.2, h.invites.symm, hr'.trans hr.symm⟩

/-- A pipeline with a cache that never fails and is never late, whose deliveries may run side by
side in any way. If a message of an errand is sent at some time, then no message that shares its
cooldown is sent from that time on until the cooldown is over, unless the two errands overlap. -/
theorem cooldown_kept_apart
    (run : State.Run settings (State.create size capacity sinkCapacity) acts s)
    (reliable : ∀ a ∈ acts, a.1.delivery.cache.lands settings.delivery.limit = true)
    {e e' : Errand} (alike : Alike e e')
    (apart : ¬ Overlap (chronicle settings (State.create size capacity sinkCapacity) acts) e e') :
    ∀ time time' token token',
      (time, .pushed e token) ∈ chronicle settings (State.create size capacity sinkCapacity) acts →
      (time', .pushed e' token') ∈
        chronicle settings (State.create size capacity sinkCapacity) acts →
      ¬(time ≤ time' ∧ time' < time + Cooldown.span settings.delivery.cooldowns e.notification) := by
  rintro t t' token token' hp hp' ⟨hle, hlt⟩
  have c := run.chronicled reliable
  obtain ⟨window, window', hw, hw', hk⟩ := alike.windows settings.delivery.cooldowns
  have hspan := Cooldown.ttl_eq_span hw
  have httl := Cooldown.ttl_eq_of_key_eq hw hw' hk
  refine apart fun ρ χ allowed => ⟨fun ho => ?_, fun ho => ?_⟩
  · have h := c.apart hw hw' hk hp hp' ho
    omega
  · have h := c.apart hw' hw hk.symm hp' hp ho
    omega

/-! ### Two newcomers -/

/-- User 3 hears of every newcomer, and the cooldown of a room lasts a minute. -/
def greetingSettings : Settings := ⟨⟨⟨60000, 60000⟩, .ofMillis 10, 1, 5⟩, [3], 0⟩

/-- Two users come into a room, and two workers start the jobs. Oldest first. -/
def twoArrivals : List Move :=
  [.enter (.welcomeRoom 1 "r"), .enter (.welcomeRoom 2 "r"), .submit 0, .submit 0,
    .pool (.decide 0), .pool (.ask 0), .pool (.decide 1), .pool (.ask 1), .pool .receive, .pool .take,
    .pool .hand, .pool (.start 0), .pool .receive, .pool .take, .pool .hand, .pool (.start 1)]

/-- Each worker checks the cooldown and asks for the devices. -/
def sideBySide : List Move :=
  [.deliver 0 .start, .deliver 0 (.turn 0), .deliver 1 .start, .deliver 1 (.turn 0),
    .deliver 0 (.turn 0), .deliver 1 (.turn 0)]

/-- What user 3 hears of a newcomer with a message. -/
def greeting (number : Nat) (user : UserId) : Errand :=
  ⟨number, 0, .withDefaults 3, ⟨.welcomeRoom, ⟨"welcome_room_notification", ["one"]⟩,
    (Content.roomArguments "r").set "from" (.ofId user) (Json.isCanonical_ofId user), some "r",
    some user⟩⟩

theorem alike_greetings (number number' : Nat) (user user' : UserId) :
    Alike (greeting number user) (greeting number' user') := by
  have hl : Category.welcomeRoom ∈ Cooldown.limited := by decide
  exact ⟨rfl, ⟨hl, hl⟩, Iff.rfl, "r", rfl, rfl⟩

theorem reliable_plain :
    plainWorld.delivery.cache.lands greetingSettings.delivery.limit = true := by decide

/-- The two messages go out at once. -/
theorem not_cooldown_kept : ¬ ∀ (settings : Settings) (size capacity sinkCapacity : Nat)
    (acts : List (World × Move)) (s : State),
    State.Run settings (State.create size capacity sinkCapacity) acts s →
    (∀ a ∈ acts, a.1.delivery.cache.lands settings.delivery.limit = true) →
    ∀ e e' : Errand, e.key ≠ e'.key → Alike e e' → ∀ time time' token token',
      (time, .pushed e token) ∈ chronicle settings (State.create size capacity sinkCapacity) acts →
      (time', .pushed e' token') ∈
        chronicle settings (State.create size capacity sinkCapacity) acts →
      ¬(time ≤ time' ∧ time' < time + Cooldown.span settings.delivery.cooldowns e.notification) := by
  intro h
  obtain ⟨s, hs⟩ : ∃ s, play (State.act greetingSettings) (.create 2 2 1)
      ((twoArrivals ++ sideBySide).reverse.map (plainWorld, ·)) = some s := ⟨_, rfl⟩
  obtain ⟨t, ht⟩ : ∃ t, s.act greetingSettings (plainWorld, .deliver 0 (.turn 0)) = some t := by
    cases hs; exact ⟨_, rfl⟩
  obtain ⟨u, hu⟩ : ∃ u, t.act greetingSettings (plainWorld, .deliver 1 (.turn 0)) = some u := by
    cases hs; cases ht; exact ⟨_, rfl⟩
  have run := trace_iff.2 hs
  have run' := Trace.step _ run ht
  have hp : s.facts greetingSettings (plainWorld, .deliver 0 (.turn 0)) =
      [(0, .pushed (greeting 0 1) "a")] := by cases hs; rfl
  have hp' : t.facts greetingSettings (plainWorld, .deliver 1 (.turn 0)) =
      [(0, .pushed (greeting 1 2) "a")] := by cases hs; cases ht; rfl
  have hseen : chronicle greetingSettings (State.create 2 2 1) ((plainWorld, .deliver 1 (.turn 0)) ::
      (plainWorld, .deliver 0 (.turn 0)) ::
        (twoArrivals ++ sideBySide).reverse.map (plainWorld, ·)) =
      (0, .pushed (greeting 1 2) "a") :: (0, .pushed (greeting 0 1) "a") ::
        chronicle greetingSettings (State.create 2 2 1)
          ((twoArrivals ++ sideBySide).reverse.map (plainWorld, ·)) := by
    rw [chronicle, Trace.seen_cons run', Trace.seen_cons run, hp, hp']; rfl
  refine h greetingSettings 2 2 1 _ u (.step _ run' hu) ?_ (greeting 0 1) (greeting 1 2) (by decide)
    (alike_greetings 0 1 1 2) 0 0 "a" "a" ?_ ?_ (by decide)
  · simp only [List.mem_cons, List.mem_map]
    rintro a (rfl | rfl | ⟨m, -, rfl⟩) <;> exact reliable_plain
  · rw [hseen]; simp
  · rw [hseen]; simp

/-- One worker brings its delivery to the end before the other one begins, a minute after the
record. -/
def oneByOne : List Move :=
  [.deliver 0 .start, .deliver 0 (.turn 0), .deliver 0 (.turn 0), .deliver 0 (.turn 0), .pass 3,
    .deliver 0 (.turn 0), .deliver 0 (.turn 0), .deliver 0 (.turn 0), .deliver 1 .start, .pass 60003,
    .deliver 1 (.turn 0), .deliver 1 (.turn 0), .deliver 1 (.turn 0)]

theorem cooldown_kept_apart_oneByOne :
    ∃ s acts, State.Run greetingSettings (State.create 2 2 1) acts s ∧
      chronicle greetingSettings (State.create 2 2 1) acts =
        [(60003, .pushed (greeting 1 2) "a"), (60003, .checked (greeting 1 2) true),
          (3, .recorded (greeting 0 1)), (0, .pushed (greeting 0 1) "a"),
          (0, .checked (greeting 0 1) true)] ∧
      ¬(0 ≤ 60003 ∧ 60003 < 0 + 60000) := by
  obtain ⟨s, hs⟩ : ∃ s, play (State.act greetingSettings) (.create 2 2 1)
      ((twoArrivals ++ oneByOne).reverse.map (plainWorld, ·)) = some s := ⟨_, rfl⟩
  have hseen : chronicle greetingSettings (State.create 2 2 1)
      ((twoArrivals ++ oneByOne).reverse.map (plainWorld, ·)) =
        [(60003, .pushed (greeting 1 2) "a"), (60003, .checked (greeting 1 2) true),
          (3, .recorded (greeting 0 1)), (0, .pushed (greeting 0 1) "a"),
          (0, .checked (greeting 0 1) true)] := rfl
  have run := trace_iff.2 hs
  have apart : ¬ Overlap (chronicle greetingSettings (State.create 2 2 1)
      ((twoArrivals ++ oneByOne).reverse.map (plainWorld, ·))) (greeting 0 1) (greeting 1 2) := by
    intro h
    refine (h 3 60003 true).1 ?_
    rw [hseen]
    exact .cons _ (.cons_cons _ (.cons_cons _ (List.nil_sublist _)))
  have hkept := cooldown_kept_apart run (fun a ha => by
    obtain ⟨m, -, rfl⟩ := List.mem_map.1 ha; exact reliable_plain) (alike_greetings 0 1 1 2) apart
  refine ⟨s, _, run, hseen, hkept 0 60003 "a" "a" ?_ ?_⟩ <;> rw [hseen] <;> simp

end Herald.Pipeline
