import PetFeeder.Wire.Reader
import PetFeeder.Wire.Writer

/-!
# Messages

A message is a sequence of fields. A message type says how long its encoding is, how its fields
are written, and how a field it knows is read into it (`WireMessage`). From that:

- `Wire.encode` writes the fields;
- `Wire.writeMessage` nests a message as a length-delimited field;
- `Wire.decode` reads keys until the stream ends, reads each known field into the message
  (a later field of the same tag wins) and passes over every unknown field by its wire type.
-/

namespace PetFeeder

/-- What a message type tells the wire format about itself. -/
class WireMessage (α : Type) where
  /-- The message with no field present. -/
  empty : α
  /-- How many bytes the fields take. -/
  encodedLen : α → Nat
  /-- Writes the present fields in tag order. -/
  writeFields : α → Emit Unit
  /-- Reads the value of a field into the message, or `none` for a tag it does not know. -/
  merge : α → FieldKey → Option (Scan α)

namespace Wire

variable {α : Type} [WireMessage α]

/-- Writes a message's fields. -/
def encode (m : α) : Emit Unit := WireMessage.writeFields m

/-- Writes a message as a length-delimited field: key, length, then the fields. -/
def writeMessage (tag : Nat) (m : α) : Emit Unit := do
  writeKey tag .lengthDelimited
  writeVarint (WireMessage.encodedLen m)
  WireMessage.writeFields m

/-- Reads one field into the message: a known tag by the message's own read, any other by
passing over its value. -/
def field (m : α) (key : FieldKey) : Scan α :=
  match WireMessage.merge m key with
  | some read => read
  | none => do
    skip key.wireType
    pure m

/-- Reads fields into `m` until the stream ends, for at most `fuel` rounds. Every field starts
with at least one byte of key, so a stream of `n` bytes ends within `n` rounds. -/
def decodeFrom (m : α) : (fuel : Nat) → List UInt8 → Except DecodeError α
  | 0, _ => .ok m
  | fuel + 1, bs =>
    match nextKey bs with
    | .error e _ => .error e
    | .ok none _ => .ok m
    | .ok (some key) rest =>
      match field m key rest with
      | .error e _ => .error e
      | .ok m' rest' => decodeFrom m' fuel rest'

/-- Decodes a whole stream as one message, starting from the empty message; one round more
than the stream has bytes lets the last round see the end. -/
def decode (bs : List UInt8) : Except DecodeError α :=
  decodeFrom WireMessage.empty (bs.length + 1) bs

end Wire

end PetFeeder
