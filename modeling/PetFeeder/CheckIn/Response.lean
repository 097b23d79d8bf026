import PetFeeder.Duration
import PetFeeder.Wire.Message

/-!
# The check-in response

What the server answers: when to check in next, when to feed, how many scoops, and whether it
has seen the last feeding. Every field may be absent; on the wire they are the varint fields
1 to 4, written in tag order.

The derived readings give the defaults the schedule works with: a check-in every ten seconds
when the server names no interval, no feeding when it names no feed interval, and an
acknowledgement only when it says so.
-/

namespace PetFeeder

/-- The server's answer to a check-in. -/
structure Response where
  /-- Milliseconds until the next check-in. -/
  checkinIntervalMs : Option Nat := none
  /-- Milliseconds until the next feeding. -/
  feedIntervalMs : Option Nat := none
  /-- Scoops to dispense at the next feeding, a 32-bit count. -/
  scoopsToFeed : Option Nat := none
  /-- Whether the server has recorded the last feeding. -/
  feedingAck : Option Bool := none
deriving DecidableEq, Repr

namespace Response

/-- The check-in interval when the server names none: ten seconds. -/
def defaultCheckinIntervalMs : Nat := 10000

/-- When to check in next. -/
def checkinInterval (r : Response) : Duration :=
  Duration.ofMillis (r.checkinIntervalMs.getD defaultCheckinIntervalMs)

/-- When to feed next, if at all. -/
def feedInterval (r : Response) : Option Duration := r.feedIntervalMs.map Duration.ofMillis

/-- Whether the server has acknowledged the last feeding; silence is no. -/
def feedingAcknowledged (r : Response) : Bool := r.feedingAck.getD false

/-- The bytes one optional varint field takes. -/
def fieldLen (tag : Nat) : Option Nat → Nat
  | some v => Wire.uint64FieldLength tag v
  | none => 0

/-- A truth value as the number it is written as. -/
def bit (b : Bool) : Nat := if b then 1 else 0

/-- Bytes the encoded fields take. -/
def encodedLen (r : Response) : Nat :=
  fieldLen 1 r.checkinIntervalMs + fieldLen 2 r.feedIntervalMs + fieldLen 3 r.scoopsToFeed +
    fieldLen 4 (r.feedingAck.map bit)

/-- Writes the present fields in tag order. -/
def writeFields (r : Response) : Emit Unit := do
  if let some v := r.checkinIntervalMs then Wire.writeUInt64 1 v
  if let some v := r.feedIntervalMs then Wire.writeUInt64 2 v
  if let some v := r.scoopsToFeed then Wire.writeUInt32 3 v
  if let some v := r.feedingAck then Wire.writeBool 4 v

/-- Reads fields 1 to 4 into the response; other tags are not the response's. -/
def merge (r : Response) (key : FieldKey) : Option (Scan Response) :=
  match key.tag with
  | 1 => some (do let v ← Wire.readUInt64 key; pure { r with checkinIntervalMs := some v })
  | 2 => some (do let v ← Wire.readUInt64 key; pure { r with feedIntervalMs := some v })
  | 3 => some (do let v ← Wire.readUInt32 key; pure { r with scoopsToFeed := some v })
  | 4 => some (do let v ← Wire.readBool key; pure { r with feedingAck := some v })
  | _ => none

instance : WireMessage Response where
  empty := {}
  encodedLen := encodedLen
  writeFields := writeFields
  merge := merge

end Response

end PetFeeder
