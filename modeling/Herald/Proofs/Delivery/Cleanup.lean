import Herald.Proofs.Delivery.Dead
import Herald.Proofs.Delivery.Progress

/-!
# Dead devices are removed

A worker hands the tokens of dead devices to its sink, which removes them one after the other. When
the worker is dropped the sink goes on until nothing is left.

* `Account`: what becomes of the tokens of dead devices; `Account.step` keeps it.
* `dead_removed`: the tokens that a sink removes are those of the dead devices.
-/

namespace Herald.Delivery

variable {settings : Settings} {w : World} {s t : State} {k : Worker} {m : Move} {i : Nat}
  {acts : List Life}

/-! ## Lives of workers -/

/-- Something that happens to delivery workers in the course of their lives. -/
inductive Life where
  | act (a : Act)
  /-- A worker is dropped. -/
  | drop (worker : Nat)

/-- A removal by the sink of the worker at a position is over. -/
def Life.endsRemoval (i : Nat) : Life → Bool
  | act (.move _ worker .finish) => worker == i
  | _ => false

/-- A move of a worker: in which world it was made, the worker before and after it, and what was
written down. -/
structure Turn where
  world : World
  before : Worker
  after : Worker
  written : List Happening

namespace Turn

/-- The tokens of dead devices to which messages were sent, latest first. -/
def dead (settings : Settings) (t : Turn) : List DeviceToken :=
  t.written.filterMap (dead? settings t.world)

/-- The tokens whose removal was asked for, latest first. -/
def removed (t : Turn) : List DeviceToken := t.written.filterMap removal?

/-- The tokens that came into the queue of the sink, latest first. -/
def entered (t : Turn) : List DeviceToken :=
  (t.after.sink.queue.items.drop t.before.sink.queue.items.length).reverse

end Turn

namespace State

/-- The worker at a position was not dropped. -/
def isAlive (s : State) (worker : Nat) : Bool := s.workers[worker]?.any (!·.sink.queue.isClosed)

/-- What becomes of workers; none if it cannot happen. A worker that was dropped is given no job, and
none is dropped that has one. -/
def live (settings : Settings) (s : State) : Life → Option State
  | .act (.assign worker job number) =>
    if s.isAlive worker then s.act settings (.assign worker job number) else none
  | .act a => s.act settings a
  | .drop worker =>
    match s.workers[worker]? with
    | none => none
    | some k => if k.isBusy then none else some (s.release worker)

/-- The move of the worker at a position. -/
def turn? (settings : Settings) (i : Nat) (s : State) : Life → Option Turn
  | .act (.move w worker m) =>
    if worker = i then do
      let k ← s.workers[i]?
      let r ← k.step settings w s.clock m
      pure ⟨w, k, r.1, r.2.2⟩
    else none
  | _ => none

/-- What is seen of the moves of the worker at a position, latest first. -/
def told (settings : Settings) (i : Nat) (view : Turn → List DeviceToken) (s : State)
    (acts : List Life) : List DeviceToken :=
  seen (live settings) (fun s a => (s.turn? settings i a).toList.flatMap view) s acts

end State

/-! ## What becomes of dead devices -/

/-- The tokens that will turn out to be dead. -/
def Worker.doomed (k : Worker) : List DeviceToken := k.flights.flatMap (·.stage.doomed)

/-- How the sink of a worker agrees with what was seen of it, latest first, and with the number of
removals that are over. -/
structure Account (dead removed entered : List DeviceToken) (finished : Nat) (k : Worker) :
    Prop where
  dead : ∀ x, dead.count x = removed.count x + k.sink.queue.held.count x + k.doomed.count x
  entered : entered.reverse = removed.reverse ++ k.sink.queue.items
  paced : removed.length = finished + k.sink.removal.toList.length
  dropped : k.sink.queue.isClosed = true → k.waiting = [] ∧ k.flights = []

namespace Account

variable {dead removed entered : List DeviceToken} {finished : Nat}

theorem new (capacity : Nat) : Account [] [] [] 0 { sink := .create capacity } :=
  ⟨fun _ => rfl, rfl, rfl, fun h => by cases h⟩

theorem assign (a : Account dead removed entered finished k) (ho : k.sink.queue.isClosed = false)
    (job : Job) (number : Nat) : Account dead removed entered finished (k.assign job number) :=
  ⟨a.dead, a.entered, a.paced, fun h => absurd h (by rw [Worker.assign, ho]; decide)⟩

theorem release (a : Account dead removed entered finished k) (hb : k.isBusy = false)
    (q : Queued k.tickets k.sink.queue) :
    Account dead removed entered finished { k with sink := k.sink.release } := by
  rw [Worker.isBusy_eq_false] at hb
  have hw : k.sink.queue.waiting = [] := by
    have hp := q.perm
    rw [Worker.tickets, hb.2] at hp
    exact List.map_eq_nil_iff.1 hp.nil_eq.symm
  refine ⟨fun x => ?_, a.entered, a.paced, fun _ => hb⟩
  have hd := a.dead x
  simp only [Channel.held, hw] at hd
  exact hd

theorem start (a : Account dead removed entered finished k) {e : Errand} {rest : List Errand}
    (he : k.waiting = e :: rest) : Account dead removed entered finished
      { k with waiting := rest, flights := k.flights ++ [⟨e, .fresh⟩] } := by
  refine ⟨fun x => ?_, a.entered, a.paced, fun hc => ?_⟩
  · have hd : Worker.doomed { k with waiting := rest, flights := k.flights ++ [⟨e, .fresh⟩] } =
        k.doomed := by
      simp only [Worker.doomed, List.flatMap_append, List.flatMap_cons, List.flatMap_nil]
      exact List.append_nil _
    rw [hd]
    exact a.dead x
  · rw [(a.dropped hc).1] at he; cases he

/-- A flight hands to the sink what has turned out to be dead. -/
theorem turn {clock : ClockedCache} {position : Nat} {f : Flight} {out : Option Stage × Scene}
    {flights : List Flight} (a : Account dead removed entered finished k)
    (hf : k.flights[position]? = some f)
    (ho : proceed settings w f.errand (k.scene clock) f.stage = out)
    (hp : flights.Perm (out.1.toList.map (⟨f.errand, ·⟩) ++ k.flights.eraseIdx position)) :
    out.2.log.filterMap removal? = [] ∧ ∃ new, k.sink.queue.items ++ new = out.2.queue.items ∧
      Account (out.2.log.filterMap (dead? settings w) ++ dead) removed (new.reverse ++ entered)
        finished { k with flights, sink := { k.sink with queue := out.2.queue } } := by
  have hopen : k.sink.queue.isClosed = false := Bool.eq_false_iff.2 fun hc => by
    rw [(a.dropped hc).2] at hf; cases hf
  have keeps := Keeps.proceed settings w f.errand f.stage (s := k.scene clock) hopen
  rw [ho] at keeps
  obtain ⟨new, hnew⟩ : ∃ new, k.sink.queue.items ++ new = out.2.queue.items := keeps.items
  have hk : k.doomed.Perm (f.stage.doomed ++
      (k.flights.eraseIdx position).flatMap (·.stage.doomed)) :=
    ((perm_eraseIdx hf).flatMap_right _).trans (by simp)
  have hk' : (flights.flatMap (·.stage.doomed)).Perm (Keeps.doomedOf out ++
      (k.flights.eraseIdx position).flatMap (·.stage.doomed)) := by
    refine (hp.flatMap_right _).trans ?_
    cases hout : out.1 <;> simp [Keeps.doomedOf, hout]
  refine ⟨keeps.removals, new, hnew, fun x => ?_, ?_, a.paced, fun hc => ?_⟩
  · have hcount := keeps.count x
    have hbefore := hk.count_eq x
    have hafter := hk'.count_eq x
    have hd := a.dead x
    simp only [Worker.scene, List.filterMap_nil, List.count_nil] at hcount
    simp only [List.count_append] at hbefore hafter
    simp only [List.count_append, Worker.doomed]
    omega
  · rw [List.reverse_append, List.reverse_reverse, a.entered, List.append_assoc, hnew]
  · exact absurd hc (by rw [keeps.isOpen]; decide)

/-- The sink turns to the token that has been in its queue longest. -/
theorem take {limit : Limit} {reply : Reply Failure Unit} {now : Nat} {token : DeviceToken}
    {sink : Cleanup.Sink} (a : Account dead removed entered finished k)
    (h : k.sink.take? limit reply now = some (token, sink)) :
    sink.queue.items.length ≤ k.sink.queue.items.length ∧
      Account dead (token :: removed) entered finished { k with sink } := by
  obtain ⟨hn, queue, e, rfl⟩ := Cleanup.Sink.take?_cases h
  obtain ⟨hi, -⟩ := Channel.receive?_cases e
  refine ⟨by rw [hi, List.length_cons]; exact Nat.le_succ _, fun x => ?_, ?_, ?_, fun hc => ?_⟩
  · have hd := a.dead x
    rw [Channel.held_receive e] at hd
    simp only [List.count_cons, Worker.doomed] at hd ⊢
    omega
  · rw [a.entered, hi, List.reverse_cons, List.append_assoc]; rfl
  · have hp := a.paced
    simp only [hn, Option.toList_none, List.length_nil] at hp
    simp only [List.length_cons, hp, Option.toList_some, List.length_nil]
  · exact a.dropped ((Channel.receive?_keeps e).2 ▸ hc)

theorem finish {now : Nat} {sink : Cleanup.Sink} (a : Account dead removed entered finished k)
    (h : k.sink.finish? now = some sink) : sink.queue = k.sink.queue ∧
      Account dead removed entered (finished + 1) { k with sink } := by
  obtain ⟨p, hp, -, rfl⟩ := Cleanup.Sink.finish?_cases h
  refine ⟨rfl, a.dead, a.entered, ?_, a.dropped⟩
  have hl := a.paced
  rw [hp] at hl
  exact hl

/-- A move of the worker. -/
theorem step {clock : ClockedCache} {r : Worker × ClockedCache × List Happening}
    (a : Account dead removed entered finished k) (h : Move.Step settings w clock k m r) :
    Account (Turn.dead settings ⟨w, k, r.1, r.2.2⟩ ++ dead) (Turn.removed ⟨w, k, r.1, r.2.2⟩ ++ removed)
      (Turn.entered ⟨w, k, r.1, r.2.2⟩ ++ entered) (finished + if m = .finish then 1 else 0) r.1 := by
  have hstill (c : Channel DeviceToken) : (c.items.drop c.items.length).reverse ++ entered = entered := by
    rw [List.drop_length]; rfl
  cases h with
  | start he =>
    rw [Turn.entered, hstill]
    exact a.start he
  | turn hf hr ho hp =>
    obtain ⟨hr, new, hnew, ha⟩ := a.turn hf ho hp
    rw [Turn.entered, Turn.removed, hr, ← hnew, List.drop_left]
    exact ha
  | take ht =>
    obtain ⟨hle, ha⟩ := a.take ht
    rw [Turn.entered, List.drop_of_length_le hle]
    exact ha
  | finish ht =>
    obtain ⟨hq, ha⟩ := a.finish ht
    rw [Turn.entered, hq, hstill]
    exact ha

end Account

/-! ## Runs -/

namespace State

variable {view : Turn → List DeviceToken}

/-- What is seen of the worker at a position after a run. -/
def Accounted (settings : Settings) (s : State) (acts : List Life) (t : State) : Prop :=
  ∀ i k, t.workers[i]? = some k → Account (told settings i (Turn.dead settings) s acts)
    (told settings i Turn.removed s acts) (told settings i Turn.entered s acts)
    (acts.countP (Life.endsRemoval i)) k

/-- Nothing is seen of a worker that does not move. -/
theorem told_still (run : Trace (live settings) s acts t) {a : Life}
    (h : t.turn? settings i a = none) : told settings i view s (a :: acts) =
      told settings i view s acts := by
  rw [told, run.seen_cons, h]; rfl

theorem told_turn (run : Trace (live settings) s acts t) {a : Life} {turn : Turn}
    (h : t.turn? settings i a = some turn) : told settings i view s (a :: acts) =
      view turn ++ told settings i view s acts := by
  rw [told, run.seen_cons, h]
  simp [told]

/-- A worker that stays as it is. -/
theorem Accounted.still (h : Accounted settings s acts t) (run : Trace (live settings) s acts t)
    {a : Life} (ht : t.turn? settings i a = none) (hf : a.endsRemoval i = false)
    (hk : t.workers[i]? = some k) : Account (told settings i (Turn.dead settings) s (a :: acts))
      (told settings i Turn.removed s (a :: acts)) (told settings i Turn.entered s (a :: acts))
      ((a :: acts).countP (Life.endsRemoval i)) k := by
  rw [told_still run ht, told_still run ht, told_still run ht, List.countP_cons_of_neg (by rw [hf]; decide)]
  exact h i k hk

theorem Accounted.assign (h : Accounted settings s acts t) (run : Trace (live settings) s acts t)
    {worker : Nat} {job : Job} {number : Nat} (ha : t.isAlive worker = true)
    (hlt : worker < t.workers.length) :
    Accounted settings s (.act (.assign worker job number) :: acts) (t.assign worker job number) := by
  intro i k hk
  have hw := List.getElem?_eq_getElem hlt
  rw [workers_assign hw] at hk
  by_cases hi : worker = i
  · subst hi
    rw [List.getElem?_set_self hlt, Option.some.injEq] at hk
    subst hk
    rw [isAlive, hw] at ha
    exact (h.still run rfl rfl hw).assign (by simpa using ha) job number
  · rw [List.getElem?_set_ne hi] at hk
    exact h.still run rfl rfl hk

theorem Accounted.move (h : Accounted settings s acts t) (run : Trace (live settings) s acts t)
    {worker : Nat} {u : State} (e : t.step settings w worker m = some u) :
    Accounted settings s (.act (.move w worker m) :: acts) u := by
  obtain ⟨k, r, hw, hr, rfl⟩ := step_parts e
  have hlt := (List.getElem?_eq_some_iff.1 hw).1
  intro i k' hk
  by_cases hi : worker = i
  · subst hi
    rw [List.getElem?_set_self hlt, Option.some.injEq] at hk
    subst hk
    have hturn : t.turn? settings worker (.act (.move w worker m)) = some ⟨w, k, r.1, r.2.2⟩ := by
      simp only [turn?, if_true, hw, Option.bind_eq_bind, Option.bind_some, hr]
      rfl
    have hcount : (Life.act (.move w worker m) :: acts).countP (Life.endsRemoval worker) =
        acts.countP (Life.endsRemoval worker) + if m = .finish then 1 else 0 := by
      rw [List.countP_cons]
      cases m <;> simp [Life.endsRemoval]
    rw [told_turn run hturn, told_turn run hturn, told_turn run hturn, hcount]
    exact (h worker k hw).step (.of_step hr)
  · rw [List.getElem?_set_ne hi] at hk
    refine h.still run (if_neg hi) ?_ hk
    cases m <;> simp [Life.endsRemoval, hi]

theorem workers_release (worker : Nat) :
    (t.release worker).workers[i]? =
      if worker = i then t.workers[i]?.map fun k => { k with sink := k.sink.release }
      else t.workers[i]? := by
  simp only [release, List.getElem?_modify]
  split <;> simp

theorem Accounted.release (h : Accounted settings s acts t) (run : Trace (live settings) s acts t)
    (q : t.Queued) {worker : Nat} {k : Worker} (hw : t.workers[worker]? = some k)
    (hb : k.isBusy = false) :
    Accounted settings s (.drop worker :: acts) (t.release worker) := by
  intro i k' hk
  rw [workers_release] at hk
  split at hk
  · next hi =>
    subst hi
    rw [hw, Option.map_some, Option.some.injEq] at hk
    subst hk
    exact (h.still run rfl rfl hw).release hb (q k (List.mem_of_getElem? hw))
  · exact h.still run rfl rfl hk

/-- Dropping a worker that has no job leaves no ticket behind. -/
theorem Queued.release (q : t.Queued) {worker : Nat} (hw : t.workers[worker]? = some k)
    (hb : k.isBusy = false) : (t.release worker).Queued := by
  intro k' hk
  obtain ⟨i, hi⟩ := List.mem_iff_getElem?.1 hk
  rw [workers_release] at hi
  split at hi
  · next he =>
    subst he
    rw [hw, Option.map_some, Option.some.injEq] at hi
    subst hi
    have hq := q k (List.mem_of_getElem? hw)
    rw [Worker.isBusy_eq_false] at hb
    have ht : k.tickets = [] := by rw [Worker.tickets, hb.2]; rfl
    have htickets : Worker.tickets { k with sink := k.sink.release } = [] := ht
    rw [htickets]
    exact ⟨.nil, .nil, fun w hw => absurd hw List.not_mem_nil, hq.room⟩
  · exact q k' (List.mem_of_getElem? hi)

/-- What is seen along a run from workers that were just made. -/
theorem accounted (run : Trace (live settings) s acts t)
    (fresh : ∀ k ∈ s.workers, ∃ capacity, k = { sink := .create capacity }) :
    Accounted settings s acts t ∧ t.Queued := by
  induction run with
  | refl =>
    refine ⟨fun i k hk => ?_, fun k hk => ?_⟩
    · obtain ⟨capacity, rfl⟩ := fresh k (List.mem_of_getElem? hk)
      exact .new capacity
    · obtain ⟨capacity, rfl⟩ := fresh k hk
      exact ⟨.nil, .nil, fun w hw => absurd hw List.not_mem_nil,
        Nat.lt_of_lt_of_le Nat.zero_lt_one (Nat.le_max_right _ _)⟩
  | @step acts t u a run e ih =>
    obtain ⟨h, q⟩ := ih
    cases a with
    | act a =>
      have hact : t.act settings a = some u := by
        cases a with
        | assign worker job number => exact (Option.ite_none_right_eq_some.1 e).2
        | move | pass => exact e
      refine ⟨?_, q.act hact⟩
      cases a with
      | assign worker job number =>
        obtain ⟨ha, e⟩ := Option.ite_none_right_eq_some.1 e
        obtain ⟨hlt, e⟩ := Option.ite_none_right_eq_some.1 e
        cases e
        exact h.assign run ha hlt
      | move w worker m => exact h.move run hact
      | pass time =>
        cases e
        exact fun i k hk => h.still run rfl rfl hk
    | drop worker =>
      simp only [live] at e
      split at e
      · cases e
      · next k hw =>
        obtain ⟨hb, e⟩ := Option.ite_none_left_eq_some.1 e
        cases e
        exact ⟨h.release run q hw (Bool.eq_false_iff.2 hb), q.release hw (Bool.eq_false_iff.2 hb)⟩

/-! ## The end of a sink -/

/-- However things go on for the worker at a position, its sink comes to its end. -/
inductive Drains (settings : Settings) (i : Nat) : State → Prop
  | ended {s : State} {k : Worker} : s.workers[i]? = some k → k.sink.hasEnded = true →
    Drains settings i s
  | go {s : State} : (∀ w, ∃ time m t, (s.pass time).step settings w i m = some t) →
    (∀ time w m t, (s.pass time).step settings w i m = some t → Drains settings i t) →
    Drains settings i s

/-- A sink that was let go of and has not ended can go on, if not at once then after a while. -/
theorem exists_step_of_release (hk : s.workers[i]? = some k) (hc : k.sink.queue.isClosed = true)
    (he : k.sink.hasEnded = false) (w : World) :
    ∃ time m t, (s.pass time).step settings w i m = some t := by
  have hi : k.sink.isIdle = false := by
    rw [Cleanup.Sink.hasEnded, hc] at he
    exact he
  let due := (k.sink.removal.map (·.due)).getD 0
  have hd : ∀ p ∈ k.sink.removal, p.due ≤ (s.pass due).clock.now := by
    intro p hp
    have hdue : due = p.due := by simp only [due, Option.mem_def.1 hp]; rfl
    exact hdue ▸ Nat.le_max_right ..
  obtain ⟨m, r, hr⟩ := Worker.exists_step_of_sink settings w hi hd
  exact ⟨due, m, _, step_eq (s := s.pass due) hk hr⟩

theorem drains (hk : s.workers[i]? = some k) (hc : k.sink.queue.isClosed = true)
    (hn : k.waiting = [] ∧ k.flights = []) : Drains settings i s := by
  generalize hl : k.late = l
  induction l using Nat.strongRecOn generalizing s k with
  | ind l ih =>
    cases he : k.sink.hasEnded with
    | true => exact .ended hk he
    | false =>
      refine .go (exists_step_of_release hk hc he) ?_
      intro time w m t h
      obtain ⟨k', r, hk', hr, rfl⟩ := step_cases h
      obtain rfl : k = k' := Option.some.inj (hk.symm.trans hk')
      have hlt : i < s.workers.length := (List.getElem?_eq_some_iff.1 hk).1
      have hset : (s.workers.set i r.1)[i]? = some r.1 := List.getElem?_set_self hlt
      have hlate : r.1.late < l := by
        have hearly : k.early = 0 := by simp [Worker.early, hn]
        rcases hr.decreases with hd | hd <;> omega
      cases hr with
      | start he => rw [hn.1] at he; cases he
      | turn hf => rw [hn.2] at hf; cases hf
      | take ht =>
        obtain ⟨-, queue, e, rfl⟩ := Cleanup.Sink.take?_cases ht
        exact ih _ hlate hset ((Channel.receive?_keeps e).2.trans hc) hn rfl
      | finish ht =>
        obtain ⟨p, -, -, rfl⟩ := Cleanup.Sink.finish?_cases ht
        exact ih _ hlate hset hc hn rfl

end State

/-! ## The tokens that are removed -/

theorem Account.of_idle {dead removed entered : List DeviceToken} {finished : Nat}
    (a : Account dead removed entered finished k) (hb : k.isBusy = false)
    (q : Queued k.tickets k.sink.queue) : dead.Perm (removed ++ k.sink.queue.items) := by
  have hd := (a.release hb q).dead
  rw [Worker.isBusy_eq_false] at hb
  refine List.perm_iff_count.2 fun x => ?_
  have hx := hd x
  simpa [Worker.doomed, hb.2, Channel.held, Cleanup.Sink.release] using hx

/-- The removals of a worker's sink, at every moment of a life: jobs are assigned, workers move, time
passes and workers that have no job are dropped, in any order, and the collaborators may reply to
each call as they like.

The tokens of the messages that the gateway answers in time by saying that it does not know the
device are those that were handed to the removal, those in the sink and those whose answer is still
to come: none is lost or repeated, and no other token is removed. When the worker has no job, the
sink holds all that were not removed. Tokens are removed in the order in which they came into the
queue, and one at a time. A removal changes nothing but the sink, and whatever it comes to, the same
is left. However full the sink is, the worker comes to have no job; and once the worker is dropped
the sink comes to its end, when it has removed all of them. -/
theorem dead_removed (run : Trace (State.live settings) s acts t)
    (fresh : ∀ k ∈ s.workers, ∃ capacity, k = { sink := .create capacity })
    (hk : t.workers[i]? = some k) :
    let dead := State.told settings i (Turn.dead settings) s acts
    let removed := State.told settings i Turn.removed s acts
    let entered := State.told settings i Turn.entered s acts
    dead.Perm (removed ++ k.sink.queue.held ++ k.doomed) ∧
    (k.isBusy = false → dead.Perm (removed ++ k.sink.queue.items)) ∧
    (k.sink.hasEnded = true → dead.Perm removed) ∧
    entered.reverse = removed.reverse ++ k.sink.queue.items ∧
    removed.length = acts.countP (Life.endsRemoval i) + k.sink.removal.toList.length ∧
    (∀ time w u, (t.pass time).step settings w i .take = some u →
      ∃ sink, u.workers = t.workers.set i { k with sink } ∧ u.clock = (t.pass time).clock) ∧
    (∀ time w u, (t.pass time).step settings w i .finish = some u → u = { t.pass time with
      workers := t.workers.set i { k with sink := { k.sink with removal := none } } }) ∧
    t.Ends settings ∧
    (t.isAlive i = false → State.Drains settings i t) := by
  intro dead removed entered
  obtain ⟨accounted, q⟩ := State.accounted run fresh
  have a := accounted i k hk
  have hq := q k (List.mem_of_getElem? hk)
  have hidle : k.isBusy = false → dead.Perm (removed ++ k.sink.queue.items) := fun hb =>
    a.of_idle hb hq
  refine ⟨?_, hidle, ?_, a.entered, a.paced, ?_, ?_, State.ends q, ?_⟩
  · refine List.perm_iff_count.2 fun x => ?_
    simpa only [List.count_append] using a.dead x
  · intro he
    obtain ⟨hc, hi⟩ := Bool.and_eq_true_iff.1 he
    have hb : k.isBusy = false := by simp [Worker.isBusy, a.dropped hc]
    have hitems : k.sink.queue.items = [] := List.isEmpty_iff.1 (Bool.and_eq_true_iff.1 hi).1
    have hp := hidle hb
    rwa [hitems, List.append_nil] at hp
  · intro time w u h
    obtain ⟨k', r, hk', hr, rfl⟩ := State.step_cases h
    obtain rfl : k = k' := Option.some.inj (hk.symm.trans hk')
    cases hr with
    | take ht => exact ⟨_, rfl, rfl⟩
  · intro time w u h
    obtain ⟨k', r, hk', hr, rfl⟩ := State.step_cases h
    obtain rfl : k = k' := Option.some.inj (hk.symm.trans hk')
    cases hr with
    | finish ht =>
      obtain ⟨p, -, -, rfl⟩ := Cleanup.Sink.finish?_cases ht
      rfl
  · intro hd
    have hc : k.sink.queue.isClosed = true := by simpa [State.isAlive, hk] using hd
    exact State.drains hk hc (a.dropped hc)

/-- A user with three devices, two of which are dead, and a device store that is too slow. -/
def slowStore : World where
  devices _ := .now ["a", "b", "c"]
  gateway index _ := ⟨0, if index = 1 then .ok () else .error .unregistered⟩
  cache := .now ()
  removal := ⟨20, .ok ()⟩
  time := 0

/-- One dead token is in the queue and one waits outside; the worker is dropped while the first
removal is under way. Latest first. -/
def droppedEarly : List Life :=
  [.act (.move slowStore 0 .finish), .act (.pass 20), .act (.move slowStore 0 .take),
    .act (.move slowStore 0 .finish), .act (.pass 10), .drop 0, .act (.move slowStore 0 (.turn 0)),
    .act (.move slowStore 0 (.turn 0)), .act (.move slowStore 0 (.turn 0)),
    .act (.move slowStore 0 .take), .act (.move slowStore 0 (.turn 0)),
    .act (.move slowStore 0 (.turn 0)), .act (.move slowStore 0 .start),
    .act (.assign 0 ⟨[.withDefaults 1], ⟨.newFollower, ⟨"", []⟩, ∅, none, none⟩⟩ 7)]

theorem dead_removed_droppedEarly :
    ∃ t, Trace (State.live ⟨⟨0, 0⟩, .ofMillis 10, 1, 5⟩) ⟨{}, [{ sink := .create 1 }], []⟩
        droppedEarly t ∧
      State.told ⟨⟨0, 0⟩, .ofMillis 10, 1, 5⟩ 0 Turn.removed ⟨{}, [{ sink := .create 1 }], []⟩
        droppedEarly = ["c", "a"] ∧
      (State.told ⟨⟨0, 0⟩, .ofMillis 10, 1, 5⟩ 0 (Turn.dead ⟨⟨0, 0⟩, .ofMillis 10, 1, 5⟩)
        ⟨{}, [{ sink := .create 1 }], []⟩ droppedEarly).Perm ["c", "a"] := by
  obtain ⟨t, ht⟩ : ∃ t, play (State.live ⟨⟨0, 0⟩, .ofMillis 10, 1, 5⟩)
      ⟨{}, [{ sink := .create 1 }], []⟩ droppedEarly = some t := ⟨_, rfl⟩
  obtain ⟨k, hk, he⟩ : ∃ k, t.workers[0]? = some k ∧ k.sink.hasEnded = true := by
    cases ht; exact ⟨_, rfl, rfl⟩
  have hremoved : State.told ⟨⟨0, 0⟩, .ofMillis 10, 1, 5⟩ 0 Turn.removed
      ⟨{}, [{ sink := .create 1 }], []⟩ droppedEarly = ["c", "a"] := rfl
  have h := dead_removed (trace_iff.2 ht) (by simp) hk
  exact ⟨t, trace_iff.2 ht, hremoved, hremoved ▸ h.2.2.1 he⟩

end Herald.Delivery
