import PetFeeder.Bytes.Sink
import PetFeeder.Wire.Key

/-!
# Writing fields

A writer puts fields into a sink, each as its key followed by its value. Varints, keys and
lengths go in byte by byte, so a full sink can keep part of one; a byte payload goes in as one
slice, whole or not at all on a bounded sink.

Main statement: `writeVarint_growable` (a growable sink takes exactly the varint's bytes).
-/

namespace PetFeeder.Wire

/-- Writes the varint of `v` byte by byte. -/
def writeVarint (v : Nat) : Emit Unit := Sink.putEach (Varint.encode v)

/-- Writes the key of a field. -/
def writeKey (tag : Nat) (w : WireType) : Emit Unit := writeVarint (FieldKey.raw tag w)

/-- Writes a varint field. -/
def writeUInt64 (tag v : Nat) : Emit Unit := do
  writeKey tag .varint
  writeVarint v

/-- Writes a 32-bit field; on the wire it is a varint field like any other. -/
def writeUInt32 (tag v : Nat) : Emit Unit := writeUInt64 tag v

/-- Writes a truth value as the varint field 1 or 0. -/
def writeBool (tag : Nat) (b : Bool) : Emit Unit := writeUInt64 tag (if b then 1 else 0)

/-- Writes a length-delimited field: key, length, then the payload as one slice. -/
def writeBytes (tag : Nat) (data : List UInt8) : Emit Unit := do
  writeKey tag .lengthDelimited
  writeVarint data.length
  Sink.putSlice data

theorem writeVarint_growable (v : Nat) (s : Sink) (h : s.capacity = none) :
    writeVarint v s = .ok () { s with bytes := s.bytes ++ (Varint.encode v).toArray } :=
  Sink.putEach_growable _ s h

end PetFeeder.Wire
