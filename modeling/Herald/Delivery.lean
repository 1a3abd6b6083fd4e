import Herald.Cleanup
import Herald.Cooldown
import Herald.History

/-!
# Delivery

A worker delivers one job at a time: a notification for a list of recipients. For each of them, an
`Errand`, it checks the cooldown, looks up the devices, sends to all of them at once, records the
cooldown and keeps the history. Some errands are in flight at the same time, as many as the
settings allow; a new one starts as soon as there is room.

Everything that happens is a `Move`. Moves take no time; a call ends at the time that was fixed
when it started, and what it does to the cache it does then. Which move comes first among those
that are possible is left open here.

* `Worker.step`: what a move makes of a worker and of the cache, and what happens in it.

Here are `process` of the delivery worker (`Worker`), its `deliver_to_target` (`Flight`) and
`deliver_to_device` (`Send`).
-/

namespace Herald.Delivery

/-- A notification for a list of recipients. -/
structure Job where
  targets : List Recipient
  notification : Notification

/-- What is fixed while workers run. -/
structure Settings where
  cooldowns : Cooldown.Durations
  limit : Limit
  /-- How many recipients of a job are served at the same time; at least one is. -/
  concurrency : Nat
  historyCap : Nat

/-- How the collaborators reply to calls that start now. -/
structure World where
  devices : UserId → Reply Failure (List DeviceToken)
  /-- To a message to the device at a position of a list. -/
  gateway : Nat → DeviceToken → Reply DeliveryError Unit
  cache : Reply Failure Unit
  removal : Reply Failure Unit
  /-- Seconds since 1970. -/
  time : Int64

/-- What is to be done for one recipient of a job. -/
structure Errand where
  /-- The number of the job. -/
  job : Nat
  /-- The recipient's position in the job. -/
  position : Nat
  recipient : Recipient
  notification : Notification

namespace Errand

/-- The user to be notified. -/
def user (e : Errand) : UserId := e.recipient.user

/-- The cooldown that the errand has to respect. -/
def window? (d : Cooldown.Durations) (e : Errand) : Option Cooldown.Window :=
  Cooldown.window? d e.user e.notification

/-- What the errand leaves in the history. -/
def entry (time : Int64) (e : Errand) : StoredNotification where
  timestamp := time
  sender := e.notification.origin.getD 0
  category := e.notification.category
  arguments := e.notification.arguments

end Errand

/-- The errands of a job, in order. -/
def Job.errands (j : Job) (number : Nat) : List Errand :=
  j.targets.zipIdx.map fun t => ⟨number, t.2, t.1, j.notification⟩

/-- What is said when a lookup of devices overruns. -/
def lookupName : String := "device lookup"

/-- What is said when a push overruns. -/
def pushName : String := "push delivery"

/-- A message on its way to a device. -/
inductive Send where
  | flying (call : Pending DeliveryError Unit)
  /-- The device is dead, and its token waits for a place in the queue of the sink. -/
  | parked (ticket : Nat)
  | ended

/-- How far an errand has come. -/
inductive Stage where
  | fresh
  | checking (window : Cooldown.Window) (call : Pending Failure Unit)
  | lookingUp (call : Pending Failure (List DeviceToken))
  | sending (sends : List (DeviceToken × Send))
  | recording (window : Cooldown.Window) (call : Pending Failure Unit)
  | storing (entry : StoredNotification) (call : Pending Failure Unit)

/-- An errand that is being run. -/
structure Flight where
  errand : Errand
  stage : Stage

/-- Something that happened. -/
inductive Happening where
  | began (e : Errand)
  | called (c : Call)
  /-- The cache has said whether there is a cooldown. -/
  | checked (e : Errand) (marked : Except Failure Bool)
  | found (e : Errand) (answer : Except Failure (List DeviceToken))
  /-- A message to the device at a position of the answer. -/
  | sent (e : Errand) (index : Nat) (token : DeviceToken)
  | answered (e : Errand) (index : Nat) (token : DeviceToken) (answer : Except DeliveryError Unit)
  | ended (e : Errand)

/-- What a flight can see and change. -/
structure Scene where
  clock : ClockedCache
  queue : Channel DeviceToken
  /-- What happened, latest first. -/
  log : List Happening := []

namespace Scene

/-- The time. -/
def now (s : Scene) : Nat := s.clock.now

/-- Writes down what happens. -/
def note (s : Scene) (h : Happening) : Scene := { s with log := h :: s.log }

/-- Changes the cache. -/
def write (s : Scene) (f : Cache → Cache) : Scene :=
  { s with clock := { s.clock with cache := f s.clock.cache } }

end Scene

/-! ## Sends -/

namespace Send

/-- There is something to do for a send. -/
def isReady (s : Scene) : Send → Bool
  | flying call => call.isOver s.now
  | parked ticket => s.queue.calls ticket
  | ended => false

/-- The send is over. -/
def isEnded : Send → Bool
  | ended => true
  | _ => false

/-- Hands a dead token to the sink. If the sink has ended the token is let go. -/
def park (token : DeviceToken) (s : Scene) : Send × Scene :=
  match s.queue.send? token with
  | none => (.ended, s)
  | some (none, queue) => (.ended, { s with queue })
  | some (some ticket, queue) => (.parked ticket, { s with queue })

/-- Goes on with a send as far as it can. -/
def proceed (e : Errand) (index : Nat) (token : DeviceToken) (s : Scene) : Send → Send × Scene
  | flying call =>
    if call.isOver s.now then
      let s := s.note (.answered e index token call.answer)
      match call.answer with
      | .error .unregistered => park token s
      | _ => (.ended, s)
    else (.flying call, s)
  | parked ticket =>
    match s.queue.enter? ticket with
    | some (_, queue) => (.ended, { s with queue })
    | none => (.parked ticket, s)
  | ended => (.ended, s)

/-- Goes on with sends in order; `index` is the position of the first one. -/
def proceedAll (e : Errand) (index : Nat) :
    List (DeviceToken × Send) → Scene → List (DeviceToken × Send) × Scene
  | [], s => ([], s)
  | (token, send) :: rest, s =>
    let r := send.proceed e index token s
    let t := proceedAll e (index + 1) rest r.2
    ((token, r.1) :: t.1, t.2)

/-- Starts a message to each device in order; `index` is the position of the first one. One that
takes no time is over before the next one starts. -/
def beginAll (settings : Settings) (w : World) (e : Errand) (index : Nat) :
    List DeviceToken → Scene → List (DeviceToken × Send) × Scene
  | [], s => ([], s)
  | token :: rest, s =>
    let call := Pending.start s.now settings.limit pushName (w.gateway index token)
    let r := (flying call).proceed e index token (s.note (.sent e index token))
    let t := beginAll settings w e (index + 1) rest r.2
    ((token, r.1) :: t.1, t.2)

end Send

/-! ## Flights -/

namespace Stage

/-- There is something to do in a stage. -/
def isReady (s : Scene) : Stage → Bool
  | fresh => true
  | checking _ call => call.isOver s.now
  | lookingUp call => call.isOver s.now
  | sending sends => sends.all (·.2.isEnded) || sends.any (·.2.isReady s)
  | recording _ call => call.isOver s.now
  | storing _ call => call.isOver s.now

/-- The stage is the one of sends. -/
def isSending : Stage → Bool
  | sending _ => true
  | _ => false

end Stage

variable (settings : Settings) (w : World)

/-- Asks for the devices. -/
def lookUp (e : Errand) (s : Scene) : Option Stage × Scene :=
  (some (.lookingUp (.start s.now settings.limit lookupName (w.devices e.user))),
    s.note (.called (.devices e.user)))

/-- The errand is over. -/
def conclude (e : Errand) (s : Scene) : Option Stage × Scene := (none, s.note (.ended e))

/-- Keeps the history, if the notification belongs there. -/
def store (e : Errand) (s : Scene) : Option Stage × Scene :=
  if e.notification.category.isStorable then
    (some (.storing (e.entry w.time) (.start s.now settings.limit History.writeName w.cache)),
      s.note (.called (.pushEntry (History.key e.user) settings.historyCap)))
  else conclude e s

/-- Records the cooldown, if there is one. -/
def record (e : Errand) (s : Scene) : Option Stage × Scene :=
  match e.window? settings.cooldowns with
  | none => store settings w e s
  | some window =>
    (some (.recording window (.start s.now settings.limit Cooldown.recordName w.cache)),
      s.note (.called (.setMark window.key window.ttl)))

/-- Checks the cooldown, if there is one. -/
def check (e : Errand) (s : Scene) : Option Stage × Scene :=
  match e.window? settings.cooldowns with
  | none => lookUp settings w e s
  | some window =>
    (some (.checking window (.start s.now settings.limit Cooldown.checkName w.cache)),
      s.note (.called (.markExists window.key)))

/-- Goes on with an errand that has something to do; no stage is left when it is over. -/
def proceed (e : Errand) (s : Scene) : Stage → Option Stage × Scene
  | .fresh => check settings w e s
  | .checking window call =>
    let marked := call.answer.map fun _ => s.clock.cache.isMarked s.now window.key
    let s := s.note (.checked e marked)
    if Cooldown.allows marked then lookUp settings w e s else conclude e s
  | .lookingUp call =>
    let s := s.note (.found e call.answer)
    match call.answer with
    | .error _ => conclude e s
    | .ok tokens =>
      let r := Send.beginAll settings w e 0 tokens s
      (some (.sending r.1), r.2)
  | .sending sends =>
    if sends.all (·.2.isEnded) then record settings w e s
    else
      let r := Send.proceedAll e 0 sends s
      (some (.sending r.1), r.2)
  | .recording window call =>
    let s := match call.answer with
      | .ok _ => s.write (·.setMark window.key (s.now + window.ttl))
      | .error _ => s
    store settings w e s
  | .storing entry call =>
    let s := match call.answer with
      | .ok _ => s.write (·.push (History.key e.user) entry.encode settings.historyCap)
      | .error _ => s
    conclude e s

/-! ## Workers -/

/-- A delivery worker with its sink. -/
structure Worker where
  /-- Errands that have not started, in order. -/
  waiting : List Errand := []
  /-- Errands that have. -/
  flights : List Flight := []
  sink : Cleanup.Sink

/-- Something that can happen. -/
inductive Move where
  /-- The next errand starts. -/
  | start
  /-- The flight at a position goes on. -/
  | turn (position : Nat)
  /-- The sink turns to its next token. -/
  | take
  /-- The sink is done with a token. -/
  | finish
deriving DecidableEq, Repr

namespace Worker

/-- The worker has a job. -/
def isBusy (k : Worker) : Bool := !(k.waiting.isEmpty && k.flights.isEmpty)

/-- Gives a job to a worker. -/
def assign (k : Worker) (j : Job) (number : Nat) : Worker :=
  { k with waiting := k.waiting ++ j.errands number }

/-- How many errands may be in flight. -/
def room : Nat := max settings.concurrency 1

/-- Another errand may start. -/
def canStart (k : Worker) : Bool := k.flights.length < room settings && !k.waiting.isEmpty

/-- What the flights of a worker can see and change. -/
def scene (clock : ClockedCache) (k : Worker) : Scene := ⟨clock, k.sink.queue, []⟩

/-- Puts a flight back after a turn. One that has just come to wait for a call goes to the end, so
that those who have waited longer are served first. -/
def reinsert (s : Scene) (before : Stage) (position : Nat) (f : Flight) (flights : List Flight) :
    List Flight :=
  if f.stage.isReady s || (before.isSending && f.stage.isSending) then flights.set position f
  else flights.eraseIdx position ++ [f]

/-- What a move makes of a worker and of the cache, and what happens in it, latest first. -/
def step (clock : ClockedCache) (k : Worker) :
    Move → Option (Worker × ClockedCache × List Happening)
  | .start =>
    match k.waiting with
    | [] => none
    | e :: rest =>
      if k.flights.length < room settings then
        some ({ k with waiting := rest, flights := k.flights ++ [⟨e, .fresh⟩] }, clock, [.began e])
      else none
  | .turn position =>
    match k.flights[position]? with
    | none => none
    | some f =>
      if f.stage.isReady (k.scene clock) then
        let r := proceed settings w f.errand (k.scene clock) f.stage
        let flights := match r.1 with
          | none => k.flights.eraseIdx position
          | some stage => reinsert r.2 f.stage position ⟨f.errand, stage⟩ k.flights
        some ({ k with flights, sink := { k.sink with queue := r.2.queue } }, r.2.clock, r.2.log)
      else none
  | .take =>
    (k.sink.take? settings.limit w.removal clock.now).map fun r =>
      ({ k with sink := r.2 }, clock, [.called (.removeDevice r.1)])
  | .finish => (k.sink.finish? clock.now).map fun sink => ({ k with sink }, clock, [])

end Worker

end Herald.Delivery
