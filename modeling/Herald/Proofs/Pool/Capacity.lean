import Herald.Proofs.Pool.Accounting
import Mathlib.Data.List.Perm.Subperm

/-!
# How much a pool takes in

The slots that were put on the registry are those of different workers who wait at them or have
left them for good, so that the registry never fills. A pool that is not told to end ends only when
all its workers have broken down.

* `Slots`, `Alive`, `Room`: what holds of a pool at every moment; `Slots.step`, `Alive.step` and
  `Room.step` keep it.
-/

namespace Herald.Pool

variable {J : Type} {s t : State J} {m : Move J} {moves : List (Move J)} {size capacity : Nat}

open State

/-! ## What never changes -/

/-- A pool with so many workers and so many places. -/
structure Sized (size places : Nat) (s : State J) : Prop where
  workers : s.workers.length = size
  intake : s.intake.capacity = places

theorem Sized.step {places : Nat} (z : Sized size places s) (h : Step s m t) :
    Sized size places t := by
  cases h with
  | accept e | park e => exact ⟨z.workers, (Channel.send?_keeps e).1.trans z.intake⟩
  | enter e => exact ⟨z.workers, (Channel.enter?_keeps e).1.trans z.intake⟩
  | receive _ e | drain _ e => exact ⟨z.workers, (Channel.receive?_keeps e).1.trans z.intake⟩
  | _ => exact ⟨by simpa [closeIntake] using z.workers, z.intake⟩

/-! ## Slots -/

/-- The worker whose slot the dispatcher has taken. -/
def Dispatcher.offered : Dispatcher J → Option Nat
  | offering _ worker => some worker
  | _ => none

/-- The workers whose slots are with the registry or with the dispatcher. -/
def State.slots (s : State J) : List Nat := s.dispatcher.offered.toList ++ s.registry

/-- The worker waits at an empty slot, or has left it for good. -/
def Phase.hasSlot : Phase J → Bool
  | waiting none | closed none | stopped => true
  | _ => false

/-- No worker has two slots with the registry and the dispatcher, and whoever waits for a job has
one. -/
structure Slots (s : State J) : Prop where
  nodup : s.slots.Nodup
  out : ∀ i ∈ s.slots, ∃ p, s.workers[i]? = some p ∧ p.hasSlot = true
  waits : s.dispatcherEnded = false → ∀ i : Nat, s.workers[i]? = some (.waiting none) → i ∈ s.slots

namespace Slots

theorem create (size capacity : Nat) : Slots (State.create size capacity : State J) := by
  refine ⟨.nil, nofun, ?_⟩
  intro _ i h
  have h := List.eq_of_mem_replicate (List.mem_of_getElem? h)
  cases h

/-- A worker of another kind comes into a phase that leaves its slot with the registry. -/
theorem turn {i : Nat} {p q : Phase J} (l : Slots s) (h : s.workers[i]? = some p)
    (hw : t.workers = s.workers.set i q) (hq : p.hasSlot = true → q.hasSlot = true)
    (hn : q ≠ .waiting none) (hs : t.slots = s.slots)
    (hd : t.dispatcherEnded = s.dispatcherEnded) : Slots t := by
  have hi : i < s.workers.length := (List.getElem?_eq_some_iff.1 h).1
  refine ⟨hs ▸ l.nodup, ?_, ?_⟩
  · intro k hk
    obtain ⟨r, hr, ho⟩ := l.out k (hs ▸ hk)
    by_cases hki : k = i
    · subst hki
      rw [h] at hr; cases hr
      exact ⟨q, by simp [hw, hi], hq ho⟩
    · exact ⟨r, by rw [hw, List.getElem?_set_ne (Ne.symm hki), hr], ho⟩
  · intro hd' k hk
    by_cases hki : k = i
    · subst hki
      rw [hw, List.getElem?_set_self hi] at hk
      exact absurd (Option.some.inj hk) hn
    · rw [hw, List.getElem?_set_ne (Ne.symm hki)] at hk
      exact hs ▸ l.waits (hd ▸ hd') k hk

/-- A worker that has no slot gets one. -/
theorem register {i : Nat} {p : Phase J} (l : Slots s) (h : s.workers[i]? = some p)
    (hp : p.hasSlot = false) (hw : t.workers = s.workers.set i (.waiting none))
    (hs : t.slots = s.slots ++ [i]) (hd : t.dispatcherEnded = s.dispatcherEnded) : Slots t := by
  have hi : i < s.workers.length := (List.getElem?_eq_some_iff.1 h).1
  have hn : i ∉ s.slots := fun hm => by
    obtain ⟨r, hr, ho⟩ := l.out i hm
    rw [h] at hr; cases hr
    rw [hp] at ho; cases ho
  refine ⟨?_, ?_, ?_⟩
  · rw [hs]
    refine List.nodup_append.2 ⟨l.nodup, List.nodup_singleton i, ?_⟩
    intro a ha b hb
    rw [List.mem_singleton.1 hb]
    exact fun e => hn (e ▸ ha)
  · intro k hk
    rw [hw]
    by_cases hki : k = i
    · subst hki
      exact ⟨_, List.getElem?_set_self hi, rfl⟩
    · rw [hs] at hk
      have hk : k ∈ s.slots := by simpa [hki] using hk
      rw [List.getElem?_set_ne (Ne.symm hki)]
      exact l.out k hk
  · intro hd' k hk
    by_cases hki : k = i
    · rw [hs]; simp [hki]
    · rw [hw, List.getElem?_set_ne (Ne.symm hki)] at hk
      rw [hs]; exact List.mem_append_left _ (l.waits (hd ▸ hd') k hk)

/-- The slot of a worker is used up, and the worker no longer waits. -/
theorem release {i : Nat} (l : Slots s) (hs : s.slots = i :: t.slots)
    (hi : t.workers[i]? ≠ some (.waiting none))
    (hw : ∀ k, k ≠ i → t.workers[k]? = s.workers[k]?)
    (hd : s.dispatcherEnded = false) : Slots t := by
  have hn := l.nodup
  rw [hs] at hn
  obtain ⟨hn, ht⟩ := List.nodup_cons.1 hn
  refine ⟨ht, ?_, ?_⟩
  · intro k hk
    rw [hw k fun e => hn (e ▸ hk)]
    exact l.out k (hs ▸ List.mem_cons_of_mem i hk)
  · intro _ k hk
    by_cases hki : k = i
    · exact absurd (hki ▸ hk) hi
    · have hm := l.waits hd k (hw k hki ▸ hk)
      rw [hs] at hm
      exact (List.mem_cons.1 hm).resolve_left hki

/-- Neither a worker nor a slot is concerned. -/
theorem others (l : Slots s) (hw : t.workers = s.workers) (hs : t.slots = s.slots)
    (hd : t.dispatcherEnded = false → s.dispatcherEnded = false) : Slots t :=
  ⟨hs ▸ l.nodup, fun k hk => hw ▸ l.out k (hs ▸ hk),
    fun hd' k hk => hs ▸ l.waits (hd hd') k (hw ▸ hk)⟩

theorem step (l : Slots s) (h : Step s m t) : Slots t := by
  cases h with
  | accept | park | refuse | enter | stop | abandon => exact l.others rfl rfl id
  | goOn h | leave h | unheard h | start h | forgotten h | find h | findNone h | finish h | crash h =>
    exact l.turn h rfl (by simp [Phase.hasSlot]) nofun rfl rfl
  | @withdraw i job h => exact l.turn h rfl (by cases job <;> simp [Phase.hasSlot]) nofun rfl rfl
  | register h hd hr =>
    exact l.register h rfl rfl (by simp [slots]) rfl
  | receive hd | give hd | drop hd | close hd | drain hd | drained hd =>
    refine l.others rfl ?_ ?_
    · simp [slots, hd, Dispatcher.offered, closeIntake]
    · intro _
      simp [dispatcherEnded, hd]
  | take hd hr =>
    refine l.others rfl ?_ ?_
    · simp [slots, hd, hr, Dispatcher.offered]
    · intro _
      simp [dispatcherEnded, hd]
  | @hand job i hd h =>
    have hi : i < s.workers.length := (List.getElem?_eq_some_iff.1 h).1
    refine l.release (i := i) ?_ ?_ ?_ ?_
    · simp [slots, hd, Dispatcher.offered]
    · simp [List.getElem?_set_self hi]
    · intro k hk
      exact List.getElem?_set_ne (Ne.symm hk)
    · simp [dispatcherEnded, hd]
  | @handBack job i hd h =>
    refine l.release (i := i) ?_ h (fun k hk => rfl) ?_
    · simp [slots, hd, Dispatcher.offered]
    · simp [dispatcherEnded, hd]

/-- A worker that is about to put its slot on the registry finds room there. -/
theorem has_place {i : Nat} {p : Phase J} (l : Slots s) (h : s.workers[i]? = some p)
    (hp : p.hasSlot = false) : s.registry.length < s.places := by
  have hr : s.registry.Nodup := (List.nodup_append.1 l.nodup).2.1
  have hn : i ∉ s.registry := fun hm => by
    obtain ⟨r, hr, ho⟩ := l.out i (List.mem_append_right _ hm)
    rw [h] at hr; cases hr
    rw [hp] at ho; cases ho
  have hsub : (i :: s.registry) ⊆ List.range s.workers.length := by
    intro k hk
    rcases List.mem_cons.1 hk with rfl | hk
    · exact List.mem_range.2 (List.getElem?_eq_some_iff.1 h).1
    · obtain ⟨r, hr, -⟩ := l.out k (List.mem_append_right _ hk)
      exact List.mem_range.2 (List.getElem?_eq_some_iff.1 hr).1
  have hl := (List.Nodup.subperm (List.nodup_cons.2 ⟨hn, hr⟩) hsub).length_le
  rw [List.length_cons, List.length_range] at hl
  exact Nat.lt_of_lt_of_le hl (Nat.le_max_left _ _)

end Slots

/-! ## Ends -/

/-- The dispatcher no longer takes jobs. -/
def Dispatcher.hasGivenUp : Dispatcher J → Bool
  | closing _ | draining _ | ended _ => true
  | _ => false

/-- A worker that stays as long as the pool is not told to end. -/
def Phase.stays : Phase J → Bool
  | closed _ | stopped => false
  | _ => true

/-- The handler of the worker broke down. -/
def Phase.isCrashed : Phase J → Bool
  | crashed _ => true
  | _ => false

/-- In a pool that was not told to end no worker ends but by breaking down, and the dispatcher gives
up only when all have. -/
structure Alive (s : State J) : Prop where
  stay : s.shutdown = .none → ∀ p ∈ s.workers, p.stays = true
  wrecked : s.shutdown = .none → s.dispatcher.hasGivenUp = true → ∀ p ∈ s.workers, p.isCrashed = true

namespace Alive

theorem create (size capacity : Nat) : Alive (State.create size capacity : State J) :=
  ⟨fun _ p hp => by rw [List.eq_of_mem_replicate hp]; rfl, nofun⟩

/-- No worker comes to its end, and the dispatcher goes on as before. -/
theorem turn {i : Nat} {p q : Phase J} (a : Alive s) (h : s.workers[i]? = some p)
    (hw : t.workers = s.workers.set i q) (hp : p.isCrashed = false)
    (hq : s.shutdown = .none → q.stays = true)
    (hs : t.shutdown = s.shutdown)
    (hd : t.dispatcher.hasGivenUp = true → s.dispatcher.hasGivenUp = true) : Alive t := by
  refine ⟨?_, ?_⟩
  · intro hn r hr
    rw [hw] at hr
    rcases List.mem_or_eq_of_mem_set hr with hr | rfl
    · exact a.stay (hs ▸ hn) r hr
    · exact hq (hs ▸ hn)
  · intro hn hg
    have hc := a.wrecked (hs ▸ hn) (hd hg) p (List.mem_of_getElem? h)
    rw [hp] at hc; cases hc

theorem others (a : Alive s) (hw : t.workers = s.workers) (hs : t.shutdown = s.shutdown)
    (hd : t.dispatcher.hasGivenUp = true → s.dispatcher.hasGivenUp = true) : Alive t :=
  ⟨fun hn => hw ▸ a.stay (hs ▸ hn), fun hn hg => hw ▸ a.wrecked (hs ▸ hn) (hd hg)⟩

theorem not_ended (a : Alive s) {i : Nat} {p : Phase J} (h : s.workers[i]? = some p)
    (hp : p.isCrashed = false) (hn : s.shutdown = .none) : s.dispatcherEnded = false := by
  apply Bool.eq_false_iff.2
  intro hd
  have hg : s.dispatcher.hasGivenUp = true := by
    unfold dispatcherEnded at hd
    split at hd
    · next e => rw [e]; rfl
    · cases hd
  have hc := a.wrecked hn hg p (List.mem_of_getElem? h)
  rw [hp] at hc; cases hc

theorem step (a : Alive s) (h : Step s m t) : Alive t := by
  cases h with
  | accept | park | refuse | enter => exact a.others rfl rfl id
  | stop | abandon => exact ⟨nofun, nofun⟩
  | goOn h | start h | find h | finish h | crash h | register h =>
    exact a.turn h rfl rfl (fun _ => rfl) rfl id
  | leave h hs => exact a.turn h rfl rfl (fun hn => by rw [hs] at hn; cases hn) rfl id
  | unheard h hd | forgotten h hd =>
    refine a.turn h rfl rfl ?_ rfl id
    intro hn
    rw [a.not_ended h rfl hn] at hd; cases hd
  | withdraw h hs => exact a.turn h rfl rfl (fun hn => absurd hn hs) rfl id
  | findNone h =>
    refine a.turn h rfl rfl ?_ rfl id
    intro hn
    cases a.stay hn _ (List.mem_of_getElem? h)
  | hand hd h => exact a.turn h rfl rfl (fun _ => rfl) rfl nofun
  | receive hd | take hd | handBack hd => exact a.others rfl rfl nofun
  | close hd | drain hd | drained hd => exact a.others rfl rfl fun _ => by rw [hd]; rfl
  | give hd hs => exact ⟨a.stay, fun hn => absurd hn hs⟩
  | drop hd hs =>
    refine ⟨a.stay, ?_⟩
    intro hn _ p hp
    rcases hs with hs | ⟨-, he⟩
    · exact absurd hn hs
    · have hp' := a.stay hn p hp
      have he := List.all_eq_true.1 he p hp
      cases p with
      | crashed job => rfl
      | stopped => cases hp'
      | _ => cases he

end Alive

/-! ## Room -/

/-- At most one job is dropped before the intake is closed, and no more than there are places
after that. -/
structure Room (s : State J) : Prop where
  before : s.dispatcher.hasClosed = false → s.dispatcher.dropped ≤ 1
  after : s.dispatcher.hasClosed = true →
    s.dispatcher.dropped + s.intake.items.length ≤ s.intake.capacity + 1

namespace Room

theorem create (size capacity : Nat) : Room (State.create size capacity : State J) :=
  ⟨fun _ => Nat.zero_le 1, nofun⟩

theorem step (r : Room s) (g : Gate s) (h : Step s m t) : Room t := by
  cases h with
  | accept e | park e =>
    refine ⟨r.before, ?_⟩
    intro hc
    cases hc.symm.trans (g.closed.symm.trans (Channel.send?_keeps e).2.2)
  | enter e =>
    refine ⟨r.before, ?_⟩
    intro hc
    have hw := List.mem_of_mem_take (Channel.enter?_cases e).1
    rw [g.turnedAway (g.closed.trans hc)] at hw; cases hw
  | receive hd | hand hd | give hd => exact ⟨fun _ => Nat.zero_le 1, nofun⟩
  | take hd | handBack hd => exact ⟨fun _ => Nat.zero_le 1, nofun⟩
  | drop hd => exact ⟨fun _ => Nat.le_refl 1, nofun⟩
  | close hd =>
    have hb := r.before (by rw [hd]; rfl)
    rw [hd] at hb
    exact ⟨nofun, fun _ => Nat.le_trans (Nat.add_le_add hb s.intake.length_items_le)
      (Nat.le_of_eq (Nat.add_comm 1 _))⟩
  | drain hd e =>
    have ha := r.after (by rw [hd]; rfl)
    rw [hd, (Channel.receive?_cases e).1] at ha
    refine ⟨nofun, ?_⟩
    intro _
    simp only [Dispatcher.dropped, dispatcher_note, intake_note, (Channel.receive?_keeps e).1,
      List.length_cons] at ha ⊢
    omega
  | drained hd =>
    have ha := r.after (by rw [hd]; rfl)
    rw [hd] at ha
    exact ⟨nofun, fun _ => ha⟩
  | _ => exact ⟨r.before, r.after⟩

/-- The jobs that were accepted and that no worker has got yet, or that none will get. -/
theorem length_le (r : Room s) : s.queued.length + s.dispatcher.dropped ≤ s.intake.capacity + 1 := by
  have hi := s.intake.length_items_le
  have hb := r.before
  have ha := r.after
  unfold queued
  cases hd : s.dispatcher <;>
    simp only [hd, Dispatcher.hand, Dispatcher.dropped, Dispatcher.hasClosed, Option.toList_none,
      Option.toList_some, List.length_append, List.length_nil, List.length_cons,
      forall_const] at ha hb ⊢ <;>
    omega

end Room

end Herald.Pool
