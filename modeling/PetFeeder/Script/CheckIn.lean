import PetFeeder.Bench
import PetFeeder.CheckIn.Client

/-!
# Scripts of check-ins

A script performs check-ins one after another on one bench, queueing a reply before each, and
reports each round trip with what it left on the bench.
-/

namespace PetFeeder.Script

/-- What one check-in did. -/
structure CheckInReport where
  result : Except CheckInError Response
  elapsed : Duration
  /-- The phases shown during this check-in. -/
  phases : List Phase
  /-- The bytes sent on each connection opened during this check-in. -/
  sent : List (List UInt8)
  /-- Bytes of the current answer not read. -/
  unread : Nat
  isOpen : Bool
  connects : Nat
  closes : Nat

/-- The entries of an array from position `n` on. -/
def entriesFrom {α : Type} (a : Array α) (n : Nat) : List α := (a.extract n a.size).toList

/-- Performs one check-in after queueing `reply`, and reports it. -/
def checkInStep (P : Ports Bench) (ep : Endpoint) (q : Request) (reply : Option Reply)
    (b : Bench) : CheckInReport × Bench :=
  let b := match reply with
    | some r => b.push r
    | none => b
  let ((result, elapsed), b') := (CheckIn.perform P ep q).run b
  ({ result, elapsed, phases := entriesFrom b'.phases b.phases.size,
     sent := entriesFrom b'.sent b.sent.size, unread := b'.current.length, isOpen := b'.isOpen,
     connects := b'.connects, closes := b'.closes }, b')

/-- Performs the check-ins in order on one bench. -/
def runCheckIns (P : Ports Bench) (ep : Endpoint) :
    List (Request × Option Reply) → Bench → List CheckInReport
  | [], _ => []
  | (q, reply) :: rest, b =>
    let (report, b') := checkInStep P ep q reply b
    report :: runCheckIns P ep rest b'

end PetFeeder.Script
