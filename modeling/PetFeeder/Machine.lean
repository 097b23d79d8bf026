import PetFeeder.Schedule.Basic

/-!
# The feeder's state machine

The feeder is always in one of four states: idle, feeding, checking in or waiting. On every
tick the machine asks the schedule what to do next, remembers that action in its context, and
moves to the state that carries it out: feeding for a feeding, checking in for a check-in,
waiting for a wait. A state that is already the right one is kept.

The machine counts ticks: in all, and since it last changed state. Entering a state (by a tick
or by force) restarts the second count, and runs the state's entry handler, if its row of the
state table has one: every state but idle announces what it is entered for, and no state has an
exit handler. `step`, `forceStep` and `startEntries` give, beside the machine, the states whose
entry handler ran.

Main statements: `tick_state` (after a tick the state is the one for the schedule's next
action), `tick_action` and `tick_totalTicks`.
-/

namespace PetFeeder.Machine

/-- The states of the feeder. -/
inductive State
  | idle
  | feeding
  | checkingIn
  | waiting
deriving DecidableEq, Repr

namespace State

/-- The position of a state in the state table. -/
def index : State → Nat
  | .idle => 0
  | .feeding => 1
  | .checkingIn => 2
  | .waiting => 3

/-- The state at a position of the state table, if there is one. -/
def ofIndex? : Nat → Option State
  | 0 => some .idle
  | 1 => some .feeding
  | 2 => some .checkingIn
  | 3 => some .waiting
  | _ => none

/-- The name a state is shown by. -/
def name : State → String
  | .idle => "Idle"
  | .feeding => "Feeding"
  | .checkingIn => "CheckingIn"
  | .waiting => "Waiting"

/-- Whether the state's row of the state table has an entry handler: idle has none. -/
def hasEntry : State → Bool
  | .idle => false
  | _ => true

theorem ofIndex?_index (s : State) : ofIndex? s.index = some s := by
  cases s <;> rfl

end State

/-- The state that carries out an action. -/
def stateFor : Action → State
  | .feed _ => .feeding
  | .checkIn => .checkingIn
  | .wait _ => .waiting

/-- What the states work on: the schedule, the action last chosen, and the tick counts the
machine last handed over. -/
structure Context where
  ticksInState : Nat
  totalTicks : Nat
  schedule : Schedule
  action : Action
deriving DecidableEq

namespace Context

/-- A context around a schedule, its action the schedule's next one. -/
def new (s : Schedule) : Context :=
  { ticksInState := 0, totalTicks := 0, schedule := s, action := s.nextAction }

end Context

end Machine

/-- The state machine: the current state, the tick count, the tick at which the current state
was entered, and the context. -/
structure Machine where
  current : Machine.State
  tickCount : Nat
  entryTick : Nat
  ctx : Machine.Context
deriving DecidableEq

namespace Machine

/-- A machine in `initial`, with no ticks yet. -/
def new (initial : State) (ctx : Context) : Machine :=
  { current := initial, tickCount := 0, entryTick := 0, ctx := ctx }

/-- Ticks since the current state was entered. -/
def ticksInCurrentState (m : Machine) : Nat := m.tickCount - m.entryTick

/-- Enters a state: it becomes current, from this tick on. -/
def enter (m : Machine) (next : State) : Machine :=
  { m with current := next, entryTick := m.tickCount, ctx := { m.ctx with ticksInState := 0 } }

/-- The entry handlers that entering `next` runs: its own, if it has one. -/
def entryHandlers (next : State) : List State :=
  if next.hasEntry then [next] else []

/-- One tick, with the states whose entry handler it ran: count it, hand the counts to the
context, ask the schedule for the next action, and enter the state that carries it out unless it
is already current. -/
def step (m : Machine) : Machine × List State :=
  let n := m.tickCount + 1
  let action := m.ctx.schedule.nextAction
  let m' := { m with
    tickCount := n,
    ctx := { m.ctx with ticksInState := n - m.entryTick, totalTicks := n, action := action } }
  let next := stateFor action
  if next = m.current then (m', []) else (m'.enter next, entryHandlers next)

/-- One tick. -/
def tick (m : Machine) : Machine := m.step.1

/-- A forced move, with the states whose entry handler it ran: enters a state unless it is
already current. -/
def forceStep (m : Machine) (next : State) : Machine × List State :=
  if next = m.current then (m, []) else (m.enter next, entryHandlers next)

/-- Enters a state unless it is already current. -/
def force (m : Machine) (next : State) : Machine := (m.forceStep next).1

/-- Starting runs the entry handler of the current state, if it has one, and changes nothing. -/
def startEntries (m : Machine) : List State := entryHandlers m.current

/-- Applies a change to the schedule in the context. -/
def withSchedule (m : Machine) (f : Schedule → Schedule) : Machine :=
  { m with ctx := { m.ctx with schedule := f m.ctx.schedule } }

/-! ## Laws -/

theorem tick_state (m : Machine) : m.tick.current = stateFor m.ctx.schedule.nextAction := by
  unfold tick step
  dsimp only
  split
  · next h => exact h.symm
  · rfl

theorem tick_action (m : Machine) : m.tick.ctx.action = m.ctx.schedule.nextAction := by
  unfold tick step
  dsimp only
  split <;> rfl

theorem tick_totalTicks (m : Machine) : m.tick.ctx.totalTicks = m.tickCount + 1 := by
  unfold tick step
  dsimp only
  split <;> rfl

theorem tick_tickCount (m : Machine) : m.tick.tickCount = m.tickCount + 1 := by
  unfold tick step
  dsimp only
  split <;> rfl

end Machine

end PetFeeder
