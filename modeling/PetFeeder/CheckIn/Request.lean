import PetFeeder.Wire.Message

/-!
# The check-in request

What the feeder reports when it checks in: how long ago it last fed, in milliseconds, if it has
fed since the server last acknowledged a feeding. On the wire it is field 1, a varint.
-/

namespace PetFeeder

/-- The report sent with every check-in. -/
structure Request where
  /-- Milliseconds since the last feeding the server has not yet acknowledged. -/
  sinceLastFeedMs : Option Nat := none
deriving DecidableEq, Repr

namespace Request

/-- The tag of `sinceLastFeedMs`. -/
def sinceLastFeedTag : Nat := 1

/-- Bytes the encoded fields take. -/
def encodedLen (q : Request) : Nat :=
  match q.sinceLastFeedMs with
  | some v => Wire.uint64FieldLength sinceLastFeedTag v
  | none => 0

/-- Writes the present field. -/
def writeFields (q : Request) : Emit Unit :=
  match q.sinceLastFeedMs with
  | some v => Wire.writeUInt64 sinceLastFeedTag v
  | none => pure ()

/-- Reads field 1 into the request; other tags are not the request's. -/
def merge (q : Request) (key : FieldKey) : Option (Scan Request) :=
  if key.tag = sinceLastFeedTag then
    some (do
      let v ← Wire.readUInt64 key
      pure { q with sinceLastFeedMs := some v })
  else none

instance : WireMessage Request where
  empty := {}
  encodedLen := encodedLen
  writeFields := writeFields
  merge := merge

end Request

end PetFeeder
