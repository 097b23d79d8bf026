import PetFeeder.Bytes.Sink
import PetFeeder.Wire.Key

/-!
# Reading fields

A reader walks a byte stream from the front. Each read is a computation `Scan` over the bytes
not yet read; a failed read reports a `DecodeError` and leaves the stream where the failure
left it, so the caller can see how far it got.

- `readVarint` reads at most ten bytes. The bits of the tenth byte above the 64th bit are
  dropped; a continuation bit on the tenth byte is an overflow.
- `nextKey` reads a key, checking the wire type before the tag; at a clean end it answers
  `none`.
- `readUInt64`, `readUInt32`, `readBool` and `readBytes` check the key's wire type first and
  consume nothing when it is wrong.
- `skip` passes over a value of any wire type.

Main statements: `byte_cons`, `readVarint_single` (a byte without the continuation bit is a
whole varint), `expect_mismatch` (a wrong wire type consumes nothing).
-/

namespace PetFeeder

/-- A computation that reads from the front of a byte stream and may fail. -/
abbrev Scan := EStateM DecodeError (List UInt8)

/-- A computation that moves bytes from a stream into a sink and may fail. -/
abbrev Transfer := EStateM DecodeError (List UInt8 × Sink)

namespace Wire

/-- Takes the next byte; at the end of the stream the read is truncated. -/
def byte : Scan UInt8 := fun
  | [] => .error .truncated []
  | b :: rest => .ok b rest

/-- Goes on with a varint whose latest byte is `b`, whose next digit counts `2 ^ shift`, which
has added up to `acc` so far and may take `budget` more bytes. -/
def continueFrom (b : UInt8) (shift acc : Nat) : (budget : Nat) → Scan Nat
  | 0 => if b < 0x80 then pure acc else throw .varintOverflow
  | budget + 1 =>
    if b < 0x80 then pure acc
    else do
      let next ← byte
      continueFrom next (shift + 7) (acc + next.toNat % 128 * Nat.pow 2 shift) budget

/-- Reads the rest of a varint whose first byte is `first`, as a 64-bit word: ten bytes at
most, and the bits past the 64th dropped. -/
def varintFrom (first : UInt8) : Scan Nat := do
  let v ← continueFrom first 7 (first.toNat % 128) 9
  pure (v % 18446744073709551616)

/-- Reads one varint. -/
def readVarint : Scan Nat := do
  let first ← byte
  varintFrom first

/-- Reads the next key, or answers `none` when the stream is empty. The wire type is checked
before the tag. -/
def nextKey : Scan (Option FieldKey) := fun
  | [] => .ok none []
  | first :: rest =>
    (show Scan (Option FieldKey) from do
      let raw ← varintFrom first
      match WireType.ofRaw (raw % 8) with
      | .error e => throw e
      | .ok w =>
        let tag := raw / 8
        if tag = 0 ∨ 4294967296 ≤ tag then throw DecodeError.invalidTag
        else pure (some ⟨tag, w⟩)) rest

/-- Checks that a key has the wire type a read expects, consuming nothing. -/
def expect (key : FieldKey) (w : WireType) : Scan Unit :=
  if key.wireType = w then pure () else throw (.wireTypeMismatch key.tag)

/-- Reads a varint field's value. -/
def readUInt64 (key : FieldKey) : Scan Nat := do
  expect key .varint
  readVarint

/-- Reads a varint field's value and keeps its low 32 bits. -/
def readUInt32 (key : FieldKey) : Scan Nat := do
  let v ← readUInt64 key
  pure (v % 4294967296)

/-- Reads a varint field as a truth value: anything but zero is true. -/
def readBool (key : FieldKey) : Scan Bool := do
  let v ← readUInt64 key
  pure (v != 0)

/-- Moves `n` bytes from the stream into the sink, one at a time. A byte the sink refuses has
already left the stream, and the move reports the stream as truncated. -/
def copy : Nat → Transfer Unit
  | 0 => pure ()
  | n + 1 => fun (bs, sink) =>
    match bs with
    | [] => .error .truncated ([], sink)
    | b :: rest =>
      match sink.offer b with
      | (sink', true) => copy n (rest, sink')
      | (sink', false) => .error .truncated (rest, sink')

/-- Runs a read on the stream half of a transfer, leaving the sink alone. -/
def onStream {α : Type} (x : Scan α) : Transfer α := fun (bs, sink) =>
  match x bs with
  | .ok a rest => .ok a (rest, sink)
  | .error e rest => .error e (rest, sink)

/-- Reads a length-delimited field's bytes into a sink. -/
def readBytes (key : FieldKey) : Transfer Unit := do
  let n ← onStream (do expect key .lengthDelimited; readVarint)
  copy n

/-- Passes over `n` bytes. -/
def dropBytes : Nat → Scan Unit
  | 0 => pure ()
  | n + 1 => do
    let _ ← byte
    dropBytes n

/-- Passes over one value of the given wire type. -/
def skip : WireType → Scan Unit
  | .varint => do
    let _ ← readVarint
    pure ()
  | .fixed64 => dropBytes 8
  | .fixed32 => dropBytes 4
  | .lengthDelimited => do
    let n ← readVarint
    dropBytes n

/-! ## Laws -/

@[simp] theorem byte_nil : byte [] = .error .truncated [] := rfl

@[simp] theorem byte_cons (b : UInt8) (rest : List UInt8) : byte (b :: rest) = .ok b rest := rfl

theorem expect_mismatch (key : FieldKey) (w : WireType) (h : key.wireType ≠ w)
    (bs : List UInt8) : expect key w bs = .error (.wireTypeMismatch key.tag) bs := by
  unfold expect
  rw [if_neg h]
  rfl

theorem readVarint_single (b : UInt8) (rest : List UInt8) (h : b < 0x80) :
    readVarint (b :: rest) = .ok b.toNat (rest) := by
  have hb : b.toNat < 128 := by
    rw [UInt8.lt_iff_toNat_lt] at h
    exact h
  simp [readVarint, varintFrom, continueFrom, h, bind, EStateM.bind, pure, EStateM.pure]
  omega

end Wire

end PetFeeder
