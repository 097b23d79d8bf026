import PetFeeder.Bench
import PetFeeder.Controller
import PetFeeder.Script.CheckIn

/-!
# Scripts of controller ticks

A script starts a controller on a bench and then ticks it, or queues more replies, reporting
each step with what it did on the bench.
-/

namespace PetFeeder.Script

/-- One step of a controller script. -/
inductive ControlOp
  | tick
  /-- Queues a reply for a later connection. -/
  | push (r : Reply)

/-- What one tick did: the state it ticked into, its events, what it did on the bench, and the
bench's counters and the schedule afterwards. -/
structure TickReport where
  ran : Machine.State
  state : Machine.State
  events : List Event
  phases : List Phase
  sleeps : List Duration
  actuations : List Nat
  sent : List (List UInt8)
  connects : Nat
  closes : Nat
  clock : Duration
  schedule : Schedule

/-- The report of one step. -/
inductive ControlStep
  | ticked (r : TickReport)
  /-- The number of replies queued after a push. -/
  | queued (n : Nat)

/-- The report of a span of activity on the bench from `b` to `b'`. -/
def tickReport (ran : Machine.State) (events : List Event) (c : Controller) (b b' : Bench) :
    TickReport :=
  { ran, state := c.machine.current, events, phases := entriesFrom b'.phases b.phases.size,
    sleeps := entriesFrom b'.sleeps b.sleeps.size,
    actuations := entriesFrom b'.actuations b.actuations.size,
    sent := entriesFrom b'.sent b.sent.size, connects := b'.connects, closes := b'.closes,
    clock := b'.clock, schedule := c.schedule }

/-- Runs the steps in order. -/
def runControl (P : Ports Bench) : List ControlOp → Controller → Bench → List ControlStep
  | [], _, _ => []
  | .push r :: ops, c, b =>
    let b' := b.push r
    .queued b'.script.length :: runControl P ops c b'
  | .tick :: ops, c, b =>
    let ((ran, events, c'), b') := (c.tick P).run b
    .ticked (tickReport ran events c' b b') :: runControl P ops c' b'

/-- Starts and runs until `n` events have happened: everything it did on the bench, reported
as one span whose state is the machine's when it stopped. -/
def runUntil (P : Ports Bench) (c : Controller) (n : Nat) (b : Bench) : TickReport :=
  let ((events, c'), b') := (c.run P n).run b
  tickReport c'.machine.current events c' b b'

end PetFeeder.Script
