import PetFeeder.Duration

/-!
# Ports

The feeder's logic touches the world through a handful of operations: a clock that can be read
and slept on, the servo that dispenses scoops, the status light, and a byte transport to the
server. `Ports ω` gathers them as computations on a world `ω`, whatever that world is: a real
device, or a recorded script in tests. The logic is written once against `Ports` and so holds
for every world.

A transport delivers a finite answer: the world says how many bytes the open connection may
still deliver (`pending`), and every delivered byte lowers that count. Reading to the end of
an answer therefore ends.
-/

namespace PetFeeder

/-- The phases the status light shows. -/
inductive Phase
  | connecting
  | sending
  | awaiting
  | parsing
  | success
  | failure
  | feeding
deriving DecidableEq, Repr

namespace Phase

/-- The name a phase is shown by. -/
def name : Phase → String
  | .connecting => "Connecting"
  | .sending => "Sending"
  | .awaiting => "Awaiting"
  | .parsing => "Parsing"
  | .success => "Success"
  | .failure => "Failure"
  | .feeding => "Feeding"

end Phase

/-- Where the server is. -/
structure Endpoint where
  host : String
  path : String
  portNumber : Nat
deriving DecidableEq, Repr

/-- The operations the feeder's logic performs on a world `ω`. -/
structure Ports (ω : Type) where
  /-- Reads the clock. -/
  now : StateM ω Duration
  /-- Sleeps for a duration. -/
  sleep : Duration → StateM ω Unit
  /-- Runs the servo through this many dispensing cycles. -/
  actuate : Nat → StateM ω Unit
  /-- Shows a phase on the status light. -/
  signal : Phase → StateM ω Unit
  /-- Opens a connection to an endpoint; `false` when it cannot be opened. -/
  connect : Endpoint → StateM ω Bool
  /-- Sends bytes on the open connection; `false` when they cannot be sent. -/
  send : List UInt8 → StateM ω Bool
  /-- Reads the next byte of the answer, or `none` at its end. -/
  readByte : StateM ω (Option UInt8)
  /-- Closes the connection. -/
  close : StateM ω Unit
  /-- How many bytes the transport may still deliver. -/
  pending : ω → Nat
  /-- Every delivered byte lowers the count of bytes still to come. -/
  pending_readByte : ∀ w, (readByte.run w).1.isSome → pending (readByte.run w).2 < pending w

end PetFeeder
