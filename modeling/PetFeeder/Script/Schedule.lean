import PetFeeder.Machine

/-!
# Scripts of schedule and machine operations

A script applies a list of operations to one countdown, one schedule or one state machine and
keeps the value after each, so that every intermediate value can be inspected.
-/

namespace PetFeeder.Script

/-- The countdown after each step, with whether that step made it due. -/
def runCountdown : Countdown → List Duration → List (Countdown × Bool)
  | _, [] => []
  | c, dt :: rest =>
    let (c', fired) := c.advance dt
    (c', fired) :: runCountdown c' rest

/-- One operation on a schedule. -/
inductive ScheduleOp
  | advance (dt : Duration)
  | recordFeeding
  | success (r : Response) (elapsed : Duration)
  | failure (backoff elapsed : Duration)

/-- Applies one operation. -/
def ScheduleOp.apply : ScheduleOp → Schedule → Schedule
  | .advance dt, s => s.advance dt
  | .recordFeeding, s => s.recordFeeding
  | .success r elapsed, s => s.applySuccess r elapsed
  | .failure backoff elapsed, s => s.applyFailure backoff elapsed

/-- Each value a sequence of steps passes through, after the first. -/
def trace {σ ω : Type} (apply : ω → σ → σ) : σ → List ω → List σ
  | _, [] => []
  | s, op :: ops =>
    let s' := apply op s
    s' :: trace apply s' ops

/-- One operation on a state machine. -/
inductive MachineOp
  /-- Starts the machine; it enters its initial state, which changes no value. -/
  | start
  | tick
  | force (s : Machine.State)
  /-- Changes the schedule in the machine's context. -/
  | schedule (op : ScheduleOp)

/-- Applies one operation. -/
def MachineOp.apply : MachineOp → Machine → Machine
  | .start, m => m
  | .tick, m => m.tick
  | .force s, m => m.force s
  | .schedule op, m => m.withSchedule op.apply

/-- The states whose entry handler an operation runs: starting runs the current state's, a tick
or a forced move the entered state's, and a change to the schedule none. -/
def MachineOp.entries : MachineOp → Machine → List Machine.State
  | .start, m => m.startEntries
  | .tick, m => m.step.2
  | .force s, m => (m.forceStep s).2
  | .schedule _, _ => []

end PetFeeder.Script
