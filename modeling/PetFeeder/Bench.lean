import PetFeeder.Ports

/-!
# The test bench

A recording world for the feeder's logic. Its transport answers connection attempts from a
script of replies, its clock moves only when read, slept on or while the servo runs, and it
records every phase shown, every sleep, every servo run and every byte sent.

- Each connection attempt is counted and takes the next reply of the script. A refusal, or an
  empty script, refuses the connection; otherwise the reply's bytes become the answer, a new
  entry for the bytes sent is started and the connection is open.
- Sending fails on a closed connection or when the reply says so; otherwise the bytes are
  appended to the connection's entry.
- Reading takes the next byte of the answer while the connection is open.
- Closing an open connection counts a close.
- Reading the clock answers its time and then moves it on by the tick; sleeping moves it on by
  the duration slept and the oversleep; running the servo moves it on by the time per cycle
  times the cycles. All of these stop at the longest duration.

`Bench.quiet` is the same bench with a transport that refuses everything and counts nothing.
-/

namespace PetFeeder

/-- One scripted answer to a connection attempt. -/
inductive Reply
  /-- The connection is refused. -/
  | refuse
  /-- The connection opens and answers `data`; with `failSend` the request cannot be sent. -/
  | answer (data : List UInt8) (failSend : Bool)

/-- The recording world. -/
structure Bench where
  /-- Replies for the coming connection attempts, first first. -/
  script : List Reply := []
  /-- The rest of the current answer. -/
  current : List UInt8 := []
  isOpen : Bool := false
  /-- Whether the current connection refuses to send. -/
  failSend : Bool := false
  /-- The bytes sent on each connection opened, oldest first. -/
  sent : Array (List UInt8) := #[]
  connects : Nat := 0
  closes : Nat := 0
  /-- The clock's time. -/
  clock : Duration := Duration.zero
  /-- How far each reading moves the clock. -/
  clockTick : Duration := Duration.zero
  /-- How much longer than asked every sleep lasts. -/
  oversleep : Duration := Duration.zero
  /-- How long one servo cycle takes. -/
  perCycle : Duration := Duration.zero
  phases : Array Phase := #[]
  sleeps : Array Duration := #[]
  actuations : Array Nat := #[]

namespace Bench

/-- Takes the next reply and opens the connection it describes, if any. -/
def connect (b : Bench) : Bool × Bench :=
  let b := { b with connects := b.connects + 1 }
  match b.script with
  | [] => (false, b)
  | .refuse :: rest => (false, { b with script := rest })
  | .answer data failSend :: rest =>
    (true, { b with
      script := rest, current := data, failSend := failSend, isOpen := true,
      sent := b.sent.push [] })

/-- Appends bytes to the current connection's entry. -/
def send (data : List UInt8) (b : Bench) : Bool × Bench :=
  if b.isOpen ∧ !b.failSend then
    (true, { b with sent := b.sent.modify (b.sent.size - 1) (· ++ data) })
  else (false, b)

/-- Takes the next byte of the answer while the connection is open. -/
def readByte (b : Bench) : Option UInt8 × Bench :=
  if b.isOpen then
    match b.current with
    | [] => (none, b)
    | x :: rest => (some x, { b with current := rest })
  else (none, b)

/-- Closes the connection, counting the close if it was open. -/
def close (b : Bench) : Bench :=
  if b.isOpen then { b with closes := b.closes + 1, isOpen := false } else b

/-- Bytes the open connection may still deliver. -/
def pending (b : Bench) : Nat := if b.isOpen then b.current.length else 0

theorem pending_readByte (b : Bench) (h : (readByte b).1.isSome) :
    pending (readByte b).2 < pending b := by
  unfold readByte at *
  by_cases ho : b.isOpen
  · cases hc : b.current with
    | nil => simp [ho, hc] at h
    | cons x rest => simp [pending, ho, hc]
  · simp [ho] at h

/-- The bench as the feeder's ports. -/
def ports : Ports Bench where
  now := fun b => (b.clock, { b with clock := b.clock.satAdd b.clockTick })
  sleep d := fun b => ((), { b with
    sleeps := b.sleeps.push d, clock := (b.clock.satAdd d).satAdd b.oversleep })
  actuate n := fun b => ((), { b with
    actuations := b.actuations.push n, clock := b.clock.satAdd (b.perCycle.satMul n) })
  signal p := fun b => ((), { b with phases := b.phases.push p })
  connect _ := fun b => connect b
  send data := fun b => send data b
  readByte := fun b => readByte b
  close := fun b => ((), close b)
  pending := pending
  pending_readByte := fun b h => pending_readByte b h

/-- The bench with a transport that refuses every connection and counts nothing. -/
def quiet : Ports Bench :=
  { ports with
    connect := fun _ b => (false, b)
    send := fun _ b => (false, b)
    readByte := fun b => (none, b)
    close := fun b => ((), b)
    pending_readByte := fun _ h => by simp [StateT.run] at h }

/-- Queues a reply behind the others. -/
def push (b : Bench) (r : Reply) : Bench := { b with script := b.script ++ [r] }

end Bench

end PetFeeder
