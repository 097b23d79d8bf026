import PetFeeder.Wire.Varint

/-!
# Field keys and decoding errors

Every field on the wire starts with a key: the varint of `tag * 8 + wire type`. The wire type
says how the value that follows is laid out; the tag says which field it is. Tags are 32-bit
and never zero.

This module also names the ways decoding fails (`DecodeError`) and the sizes of encoded
fields (`keyLength`, `uint64FieldLength`, `lengthDelimitedFieldLength`).
-/

namespace PetFeeder

/-- How the value of a field is laid out on the wire. -/
inductive WireType
  /-- A varint. -/
  | varint
  /-- Eight bytes. -/
  | fixed64
  /-- A varint length, then that many bytes. -/
  | lengthDelimited
  /-- Four bytes. -/
  | fixed32
deriving DecidableEq, Repr

/-- Why a byte stream does not decode. -/
inductive DecodeError
  /-- The stream ended inside a key, a varint or a field's bytes. -/
  | truncated
  /-- A key's low three bits name no wire type. -/
  | unknownWireType (raw : Nat)
  /-- A key's tag is zero or does not fit in 32 bits. -/
  | invalidTag
  /-- A varint ran past ten bytes. -/
  | varintOverflow
  /-- A known field came with a wire type other than its own. -/
  | wireTypeMismatch (tag : Nat)
deriving DecidableEq, Repr

namespace DecodeError

/-- The text each decoding failure reports. -/
def message : DecodeError → String
  | .truncated => "message truncated"
  | .unknownWireType raw => "unknown wire type " ++ toString raw
  | .invalidTag => "invalid field tag 0"
  | .varintOverflow => "varint overflow"
  | .wireTypeMismatch tag => "wrong wire type for field " ++ toString tag

end DecodeError

namespace WireType

/-- The number a key carries in its low three bits. -/
def code : WireType → Nat
  | .varint => 0
  | .fixed64 => 1
  | .lengthDelimited => 2
  | .fixed32 => 5

/-- The wire type a raw number names; any other number is refused with that number. -/
def ofRaw (raw : Nat) : Except DecodeError WireType :=
  match raw with
  | 0 => .ok .varint
  | 1 => .ok .fixed64
  | 2 => .ok .lengthDelimited
  | 5 => .ok .fixed32
  | other => .error (.unknownWireType other)

/-- The name a wire type is shown by. -/
def name : WireType → String
  | .varint => "Varint"
  | .fixed64 => "Fixed64"
  | .lengthDelimited => "LengthDelimited"
  | .fixed32 => "Fixed32"

@[simp] theorem ofRaw_code (w : WireType) : ofRaw w.code = .ok w := by
  cases w <;> rfl

theorem code_lt_eight (w : WireType) : w.code < 8 := by
  cases w <;> decide

end WireType

/-- The key in front of a field: its tag and how its value is laid out. -/
structure FieldKey where
  /-- Which field; between 1 and `2 ^ 32 - 1` on a well-formed stream. -/
  tag : Nat
  /-- How the value is laid out. -/
  wireType : WireType
deriving DecidableEq, Repr

namespace FieldKey

/-- The number a key is written as: the tag shifted past the three wire-type bits. -/
def raw (tag : Nat) (w : WireType) : Nat := tag * 8 + w.code

end FieldKey

namespace Wire

/-- The bytes a key with this tag takes; the wire type never changes it. -/
def keyLength (tag : Nat) : Nat := Varint.length (tag * 8)

/-- The bytes a varint field takes: key, then value. -/
def uint64FieldLength (tag value : Nat) : Nat := keyLength tag + Varint.length value

/-- The bytes a length-delimited field with an `n`-byte payload takes: key, length, payload. -/
def lengthDelimitedFieldLength (tag n : Nat) : Nat := keyLength tag + Varint.length n + n

/-- The same count as a 64-bit word, or `none` where the sum would not fit in one. -/
def lengthDelimitedFieldLength? (tag n : Nat) : Option Nat :=
  let total := lengthDelimitedFieldLength tag n
  if total < 18446744073709551616 then some total else none

theorem keyLength_raw (tag : Nat) (w : WireType) :
    Varint.length (FieldKey.raw tag w) = keyLength tag := by
  unfold keyLength FieldKey.raw
  have hw := w.code_lt_eight
  rw [Varint.length_eq, Varint.length_eq (tag * 8)]
  by_cases h : tag * 8 < 128
  · have : tag * 8 + w.code < 128 := by omega
    simp [h, this]
  · have h1 : ¬ tag * 8 + w.code < 128 := by omega
    have h2 : (tag * 8 + w.code) / 128 = tag * 8 / 128 := by omega
    simp [h, h1, h2]

end Wire

end PetFeeder
