import PetFeeder.Machine
import PetFeeder.Config
import PetFeeder.CheckIn.Client

/-!
# The controller

The controller runs the feeder: it ticks the state machine and carries out the action the
machine chose, reporting what happens as events.

- *Feed*: show the feeding phase, run the servo for the scoops, let the schedule run on by the
  time that took, and note the feeding.
- *Check in*: send the schedule's report; on success adopt the server's answer, on failure
  retry after the backoff. Either way the schedule learns how long the round trip took.
- *Wait*: sleep for the duration, then let the schedule run on by the time measured or the time
  asked for, whichever is longer, so that a clock that lags never stalls the schedule.

A tick's events are the change of state, if any, then the outcome of the action, if it has
one. Running stops right after a given number of events, possibly between the two parts of a
tick.
-/

namespace PetFeeder

open Machine

/-- What a successful check-in changed. -/
structure Summary where
  nextCheckin : Duration
  nextFeed : Option Duration
  scoops : Nat
  feedingAcknowledged : Bool
  roundTrip : Duration
deriving DecidableEq

/-- Something the controller reports. -/
inductive Event
  /-- The controller started in a state. -/
  | started (s : State)
  /-- A tick moved the machine from one state to another. -/
  | stateChanged (previous next : State)
  /-- Scoops were dispensed. -/
  | fed (scoops : Nat)
  | checkInSucceeded (summary : Summary)
  | checkInFailed (error : CheckInError) (retryIn : Duration)
deriving DecidableEq

/-- The controller: the state machine, the server to check in with, and how long to wait
before retrying a failed check-in. -/
structure Controller where
  machine : Machine
  endpoint : Endpoint
  retryBackoff : Duration

namespace Controller

variable {ω : Type}

/-- A controller in the idle state with a fresh schedule. -/
def new (ep : Endpoint) (minScoops : Nat) (retryBackoff : Duration) : Controller :=
  { machine := Machine.new .idle (Context.new (Schedule.new minScoops)), endpoint := ep,
    retryBackoff := retryBackoff }

/-- A controller set up from settings. -/
def ofConfig (c : Config) : Controller :=
  new ⟨c.backendHost, c.backendPath, c.backendPort⟩ c.minScoopsPerFeeding c.retryBackoff

/-- The schedule the machine works on. -/
def schedule (c : Controller) : Schedule := c.machine.ctx.schedule

/-- Changes the schedule. -/
def withSchedule (c : Controller) (f : Schedule → Schedule) : Controller :=
  { c with machine := c.machine.withSchedule f }

/-- Starting reports the state the controller starts in. -/
def start (c : Controller) : Event := .started c.machine.current

/-- The machine's part of a tick: the machine ticks, and a change of state is an event. -/
def advanceMachine (c : Controller) : Controller × Option Event :=
  let previous := c.machine.current
  let m := c.machine.tick
  ({ c with machine := m }, if m.current = previous then none else some (.stateChanged previous m.current))

/-- Dispenses `scoops`, timing the servo. -/
def feed (P : Ports ω) (c : Controller) (scoops : Nat) : StateM ω (Controller × Event) := do
  P.signal .feeding
  let started ← P.now
  P.actuate scoops
  let finished ← P.now
  let elapsed := finished.satSub started
  return (c.withSchedule fun s => (s.advance elapsed).recordFeeding, .fed scoops)

/-- Checks in with the server and adopts the outcome. -/
def checkIn (P : Ports ω) (c : Controller) : StateM ω (Controller × Event) := do
  let (result, elapsed) ← CheckIn.perform P c.endpoint c.schedule.request
  match result with
  | .ok r =>
    let s := c.schedule.applySuccess r elapsed
    return (c.withSchedule fun _ => s,
      .checkInSucceeded ⟨s.timeToNextCheckin, s.timeToNextFeed, s.scoopsToFeed,
        r.feedingAcknowledged, elapsed⟩)
  | .error e =>
    return (c.withSchedule (·.applyFailure c.retryBackoff elapsed), .checkInFailed e c.retryBackoff)

/-- Sleeps for `d` and lets the schedule run on by the longer of the time measured and `d`. -/
def wait (P : Ports ω) (c : Controller) (d : Duration) : StateM ω Controller := do
  if d.isZero then return c.withSchedule (·.advance Duration.zero)
  let started ← P.now
  P.sleep d
  let finished ← P.now
  let measured := finished.satSub started
  return c.withSchedule (·.advance (measured.maxOf d))

/-- The action's part of a tick: carry out the action the machine chose. -/
def act (P : Ports ω) (c : Controller) : StateM ω (Controller × Option Event) :=
  match c.machine.ctx.action with
  | .feed scoops => do
    let (c, e) ← c.feed P scoops
    return (c, some e)
  | .checkIn => do
    let (c, e) ← c.checkIn P
    return (c, some e)
  | .wait d => do
    let c ← c.wait P d
    return (c, none)

/-- One tick: the state the machine ticked into, the tick's events, and the controller after. -/
def tick (P : Ports ω) (c : Controller) : StateM ω (State × List Event × Controller) := do
  let (c, changed) := c.advanceMachine
  let (c, outcome) ← c.act P
  return (c.machine.current, changed.toList ++ outcome.toList, c)

/-- Ticks until `budget` more events have happened, at most `fuel` times: the events (newest
first, after `acc`) and the controller when it stopped. A run stops right after its last
event, even between the two parts of a tick. -/
def runTicks (P : Ports ω) (budget : Nat) : (fuel : Nat) → List Event → Controller →
    StateM ω (List Event × Controller)
  | 0, acc, c => return (acc, c)
  | fuel + 1, acc, c => do
    if budget = 0 then return (acc, c)
    let (c, changed) := c.advanceMachine
    match changed with
    | some e =>
      if budget = 1 then return (e :: acc, c)
      let (c, outcome) ← c.act P
      match outcome with
      | some e' => runTicks P (budget - 2) fuel (e' :: e :: acc) c
      | none => runTicks P (budget - 1) fuel (e :: acc) c
    | none =>
      let (c, outcome) ← c.act P
      match outcome with
      | some e' => runTicks P (budget - 1) fuel (e' :: acc) c
      | none => runTicks P budget fuel acc c

/-- Starts and runs until `n` events have happened, oldest first. Every tick after a wait
acts, so `2 * n` ticks always suffice. -/
def run (P : Ports ω) (c : Controller) (n : Nat) : StateM ω (List Event × Controller) := do
  let e := c.start
  let (acc, c) ← runTicks P (n - 1) (2 * n) [e] c
  return (acc.reverse, c)

end Controller

end PetFeeder
