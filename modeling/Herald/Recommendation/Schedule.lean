import Herald.Call
import Herald.Pool

/-!
# The schedule of recommendations

At every tick of a ticker a round asks for recently active users and submits a job for each of them,
in order. The first tick comes one period after the start. A tick that comes late, because a round
took long, comes at once; the ticks that were missed besides are skipped, and the next one is on a
multiple of the period again. The end of the schedule waits for the round under way.

* `submitAll`: a round submits the first part of its users, all of them if none is refused.
* `run`: the rounds of a schedule.
* `Course`: everything that a schedule may do, of which `run` is one.

Here are `run_once` (`round`) and `run` of the recommendation scheduler.
-/

namespace Herald.Recommendation

/-! ## Tickers -/

/-- When the next tick is due, and how far ticks are apart. -/
structure Ticker where
  every : Nat
  due : Nat
deriving DecidableEq, Repr

namespace Ticker

/-- A tick counts as late when it comes more than so many milliseconds after it was due. -/
def tolerance : Nat := 5

/-- A ticker that starts at a time. A period is never empty. -/
def start? (now every : Nat) : Option Ticker :=
  if every = 0 then none else some ⟨every, now + every⟩

/-- The ticker after a tick that came at a time. -/
def tick (t : Ticker) (now : Nat) : Ticker :=
  if now ≤ t.due + tolerance then { t with due := t.due + t.every }
  else { t with due := now + t.every - (now - t.due) % t.every }

end Ticker

/-! ## Rounds -/

/-- Why a round ended early. -/
inductive RoundError where
  | lookup (cause : Failure)
  /-- The pool no longer takes jobs. -/
  | notRunning
deriving DecidableEq, Repr

namespace RoundError

/-- The text of an error. -/
def message : RoundError → String
  | .lookup cause => cause.message
  | .notRunning => Pool.refusal

end RoundError

/-- How long the pool takes to accept a job, and whether it does. -/
structure Intake where
  delay : Nat
  isOpen : Bool
deriving DecidableEq, Repr

/-- How the collaborators reply in a round. -/
structure RoundWorld where
  candidates : Reply Failure (List UserId)
  /-- How the pool takes the job at a position. -/
  intake : Nat → Intake

/-- What became of a round. -/
structure Round where
  start : Nat
  finish : Nat
  /-- When a job was accepted, and for whom. -/
  jobs : List (Nat × UserId)
  result : Except RoundError Nat

/-- What is said when the lookup of candidates overruns. -/
def candidatesName : String := "recommendation candidates"

/-- Submits jobs for users in order, the first one at `position` and at the time `now`, until one is
refused. Yields the jobs accepted, and when and how it ended. -/
def submitAll (intake : Nat → Intake) (position now : Nat) :
    List UserId → List (Nat × UserId) × Nat × Option RoundError
  | [] => ([], now, none)
  | user :: rest =>
    let i := intake position
    let now := now + i.delay
    if i.isOpen then
      let r := submitAll intake (position + 1) now rest
      ((now, user) :: r.1, r.2)
    else ([], now, some .notRunning)

/-- One round that starts at a time. -/
def round (limit : Limit) (w : RoundWorld) (now : Nat) : Round :=
  let lookup := w.candidates.within limit candidatesName
  let asked := now + lookup.delay
  match lookup.answer with
  | .error cause => ⟨now, asked, [], .error (.lookup cause)⟩
  | .ok users =>
    let r := submitAll w.intake 0 asked users
    ⟨now, r.2.1, r.1, match r.2.2 with
      | none => .ok r.1.length
      | some e => .error e⟩

/-! ## The schedule -/

/-- At most `n` rounds, the first one numbered `number`, before the end of a schedule is asked for
at `stop`; and when the schedule has ended. -/
def roundsFor (limit : Limit) (world : Nat → RoundWorld) (stop : Nat) :
    Nat → Nat → Ticker → Nat → List Round × Nat
  | 0, _, _, now => ([], max now stop)
  | n + 1, number, t, now =>
    let start := max now t.due
    if start < stop then
      let r := round limit (world number) start
      let rest := roundsFor limit world stop n (number + 1) (t.tick start) r.finish
      (r :: rest.1, rest.2)
    else ([], max now stop)

/-- The rounds of a schedule that starts at time 0 and whose end is asked for at `stop`, and when it
has ended. A period is never empty. -/
def run (every : Nat) (limit : Limit) (world : Nat → RoundWorld) (stop : Nat) :
    Option (List Round × Nat) :=
  (Ticker.start? 0 every).map fun t => roundsFor limit world stop (stop / every + 1) 0 t 0

/-! ## Courses -/

/-- What a schedule may do from `now` on, when it waits for a tick and `number` rounds lie behind it: the
rounds to come, and when it ended. It waits for its next tick and for being asked to end, which may never
happen, and takes whichever is ready first, or either of them if both are ready at once, as they may be
after a long round. One may stop watching before it has ended. -/
inductive Course (limit : Limit) (world : Nat → RoundWorld) (stop : Option Nat) :
    Nat → Ticker → Nat → List Round → Option Nat → Prop
  | watched {number : Nat} {t : Ticker} {now : Nat} : Course limit world stop number t now [] none
  | ended {number : Nat} {t : Ticker} {now asked : Nat} :
    stop = some asked → max now asked ≤ max now t.due →
    Course limit world stop number t now [] (some (max now asked))
  | ticked {number : Nat} {t : Ticker} {now : Nat} {rounds : List Round} {ending : Option Nat} :
    (∀ asked, stop = some asked → max now t.due ≤ max now asked) →
    Course limit world stop (number + 1) (t.tick (max now t.due))
      (round limit (world number) (max now t.due)).finish rounds ending →
    Course limit world stop number t now (round limit (world number) (max now t.due) :: rounds) ending

/-- The courses of a schedule that starts at time 0. A period is never empty. -/
def Runs (every : Nat) (limit : Limit) (world : Nat → RoundWorld) (stop : Option Nat)
    (rounds : List Round) (ending : Option Nat) : Prop :=
  ∃ t, Ticker.start? 0 every = some t ∧ Course limit world stop 0 t 0 rounds ending

end Herald.Recommendation
