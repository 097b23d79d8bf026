import PetFeeder.Schedule.Countdown
import PetFeeder.CheckIn.Request
import PetFeeder.CheckIn.Response

/-!
# The feeding schedule

The schedule holds two countdowns, one to the next check-in and one to the next feeding (only
once the server has named a feed interval), the time since the last unacknowledged feeding,
and the intervals and scoop count the server last gave.

- A new schedule checks in at once and has no feeding planned.
- `nextAction` feeds when the feed countdown is due, checks in when the check-in countdown is,
  and otherwise waits for the nearer of the two. When both are due, the one overdue longer wins,
  a tie going to the feeding.
- A successful check-in adopts the server's intervals and restarts both countdowns; a failed
  one runs the feed countdown on by the time the attempt took and retries after a backoff.
- A feeding starts the time since the last feeding and asks for a check-in at once, so the
  server hears of it.
-/

namespace PetFeeder

/-- What the feeder should do next. -/
inductive Action
  | feed (scoops : Nat)
  | checkIn
  | wait (d : Duration)
deriving DecidableEq

/-- The feeder's schedule. -/
structure Schedule where
  /-- The countdown to the next feeding, once the server has named a feed interval. -/
  nextFeed : Option Countdown
  /-- The countdown to the next check-in. -/
  nextCheckin : Countdown
  /-- Time since the last feeding the server has not acknowledged. -/
  sinceLastFeed : Option Duration
  /-- Scoops the next feeding dispenses. -/
  scoopsToFeed : Nat
  /-- The fewest scoops a feeding dispenses; at least one. -/
  minScoops : Nat
  /-- The check-in interval the server last gave. -/
  checkinInterval : Duration
  /-- The feed interval the server last gave, if any. -/
  feedInterval : Option Duration
deriving DecidableEq

namespace Schedule

/-- A fresh schedule: check in now, no feeding planned. The minimum is raised to one. -/
def new (minScoops : Nat) : Schedule :=
  let m := Nat.max minScoops 1
  { nextFeed := none, nextCheckin := Countdown.dueNow, sinceLastFeed := none, scoopsToFeed := m,
    minScoops := m, checkinInterval := Duration.zero, feedInterval := none }

/-- Whether a feeding is due. -/
def feedDue (s : Schedule) : Bool := (s.nextFeed.map Countdown.isDue).getD false

/-- Whether a check-in is due. -/
def checkinDue (s : Schedule) : Bool := s.nextCheckin.isDue

/-- Whether a feeding has happened that the server has not acknowledged. -/
def hasFed (s : Schedule) : Bool := s.sinceLastFeed.isSome

/-- Time until the next feeding, if one is planned. -/
def timeToNextFeed (s : Schedule) : Option Duration := s.nextFeed.map (·.remaining)

/-- Time until the next check-in. -/
def timeToNextCheckin (s : Schedule) : Duration := s.nextCheckin.remaining

/-- What to do next: a due feeding or check-in (the one overdue longer when both are due, a tie
going to the feeding), or else a wait for the nearer of the two countdowns. -/
def nextAction (s : Schedule) : Action :=
  match s.nextFeed.bind (·.overdue), s.nextCheckin.overdue with
  | some feed, some checkin => if feed < checkin then .checkIn else .feed s.scoopsToFeed
  | some _, none => .feed s.scoopsToFeed
  | none, some _ => .checkIn
  | none, none =>
    let checkin := s.nextCheckin.remaining
    .wait (match s.timeToNextFeed with
      | some feed => feed.min checkin
      | none => checkin)

/-- Lets `dt` pass: both countdowns run on, and so does the time since the last feeding. -/
def advance (s : Schedule) (dt : Duration) : Schedule :=
  { s with
    nextFeed := s.nextFeed.map (·.advance dt |>.1)
    nextCheckin := (s.nextCheckin.advance dt).1
    sinceLastFeed := s.sinceLastFeed.map (·.satAdd dt) }

/-- Notes a feeding: no feeding planned until the server says, the time since the feeding
starts at zero, and a check-in is due at once. -/
def recordFeeding (s : Schedule) : Schedule :=
  { s with nextFeed := none, sinceLastFeed := some Duration.zero, nextCheckin := Countdown.dueNow }

/-- The largest count a report can carry. -/
def maxReportMs : Nat := 18446744073709551615

/-- The report for the next check-in: the time since the last feeding in whole milliseconds,
capped at the largest count a report carries. -/
def request (s : Schedule) : Request :=
  { sinceLastFeedMs := s.sinceLastFeed.map fun d => Nat.min d.millis maxReportMs }

/-- Adopts a successful check-in's answer, `elapsed` being the time the round trip took:
both countdowns restart from the server's intervals, the scoop count is the server's but at
least the minimum, and an acknowledged feeding is forgotten. -/
def applySuccess (s : Schedule) (r : Response) (elapsed : Duration) : Schedule :=
  { s with
    checkinInterval := r.checkinInterval
    feedInterval := r.feedInterval
    nextCheckin := Countdown.startingAt r.checkinInterval
    nextFeed := r.feedInterval.map Countdown.startingAt
    scoopsToFeed := Nat.max (r.scoopsToFeed.getD 0) s.minScoops
    sinceLastFeed :=
      if r.feedingAcknowledged then none else s.sinceLastFeed.map (·.satAdd elapsed) }

/-- Notes a failed check-in that took `elapsed`: the feed countdown and the time since the last
feeding run on, and the next check-in is due after `backoff`. -/
def applyFailure (s : Schedule) (backoff elapsed : Duration) : Schedule :=
  { s with
    nextFeed := s.nextFeed.map (·.advance elapsed |>.1)
    sinceLastFeed := s.sinceLastFeed.map (·.satAdd elapsed)
    nextCheckin := Countdown.startingAt backoff }

/-! ## Laws -/

@[simp] theorem nextAction_new (m : Nat) : (new m).nextAction = .checkIn := rfl

@[simp] theorem minScoops_new (m : Nat) : (new m).minScoops = Nat.max m 1 := rfl

@[simp] theorem minScoops_advance (s : Schedule) (dt : Duration) :
    (s.advance dt).minScoops = s.minScoops := rfl

@[simp] theorem minScoops_recordFeeding (s : Schedule) :
    s.recordFeeding.minScoops = s.minScoops := rfl

@[simp] theorem minScoops_applySuccess (s : Schedule) (r : Response) (elapsed : Duration) :
    (s.applySuccess r elapsed).minScoops = s.minScoops := rfl

@[simp] theorem minScoops_applyFailure (s : Schedule) (backoff elapsed : Duration) :
    (s.applyFailure backoff elapsed).minScoops = s.minScoops := rfl

end Schedule

end PetFeeder
