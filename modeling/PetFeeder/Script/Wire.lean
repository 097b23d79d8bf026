import PetFeeder.CheckIn.Request
import PetFeeder.CheckIn.Response

/-!
# Scripts of field reads and writes

A script runs a list of reads over one byte stream, or a list of writes into one sink, and
reports each step. Every step runs, even after an earlier one failed: a failed read leaves the
stream where the failure left it, and a failed write keeps what the sink took.
-/

namespace PetFeeder.Script

/-- One read on a byte stream. -/
inductive ReadOp
  | nextKey
  | readVarint
  | readUInt64 (key : FieldKey)
  | readUInt32 (key : FieldKey)
  | readBool (key : FieldKey)
  /-- Reads a byte field into a fresh sink, bounded when a capacity is given. -/
  | readBytes (key : FieldKey) (cap : Option Nat)
  | skip (w : WireType)

/-- What a successful read produced. -/
inductive ReadValue
  /-- A key, or `none` at a clean end of the stream. -/
  | key (k : Option FieldKey)
  | number (n : Nat)
  | flag (b : Bool)
  | bytes (bs : List UInt8)
  /-- A skip produces nothing. -/
  | unit

/-- The report of one read: its result, the bytes left after it, and for a byte read the bytes
that reached the sink. -/
structure ReadStep where
  result : Except DecodeError ReadValue
  remaining : Nat
  sunk : List UInt8 := []

/-- Runs a read that produces a value, reporting it through `wrap`. -/
def scanStep {α : Type} (x : Scan α) (wrap : α → ReadValue) (bs : List UInt8) :
    ReadStep × List UInt8 :=
  match x bs with
  | .ok a rest => ({ result := .ok (wrap a), remaining := rest.length }, rest)
  | .error e rest => ({ result := .error e, remaining := rest.length }, rest)

/-- Runs one read on the stream. -/
def ReadOp.run (op : ReadOp) (bs : List UInt8) : ReadStep × List UInt8 :=
  match op with
  | .nextKey => scanStep Wire.nextKey .key bs
  | .readVarint => scanStep Wire.readVarint .number bs
  | .readUInt64 key => scanStep (Wire.readUInt64 key) .number bs
  | .readUInt32 key => scanStep (Wire.readUInt32 key) .number bs
  | .readBool key => scanStep (Wire.readBool key) .flag bs
  | .skip w => scanStep (Wire.skip w) (fun _ => .unit) bs
  | .readBytes key cap =>
    let sink := match cap with
      | some c => Sink.bounded c
      | none => Sink.growable
    match Wire.readBytes key (bs, sink) with
    | .ok _ (rest, s) =>
      ({ result := .ok (.bytes s.bytes.toList), remaining := rest.length, sunk := s.bytes.toList },
        rest)
    | .error e (rest, s) => ({ result := .error e, remaining := rest.length, sunk := s.bytes.toList },
        rest)

/-- Runs the reads in order on one stream. -/
def runReads : List ReadOp → List UInt8 → List ReadStep
  | [], _ => []
  | op :: ops, bs =>
    let (step, rest) := op.run bs
    step :: runReads ops rest

/-- One write into a sink. -/
inductive WriteOp
  | uint64 (tag v : Nat)
  | uint32 (tag v : Nat)
  | bool (tag : Nat) (b : Bool)
  | bytes (tag : Nat) (data : List UInt8)
  | request (tag : Nat) (q : Request)
  | response (tag : Nat) (r : Response)
  /-- A bare varint, with no key. -/
  | varint (v : Nat)

/-- The write a step performs. -/
def WriteOp.emit : WriteOp → Emit Unit
  | .uint64 tag v => Wire.writeUInt64 tag v
  | .uint32 tag v => Wire.writeUInt32 tag v
  | .bool tag b => Wire.writeBool tag b
  | .bytes tag data => Wire.writeBytes tag data
  | .request tag q => Wire.writeMessage tag q
  | .response tag r => Wire.writeMessage tag r
  | .varint v => Wire.writeVarint v

/-- The report of one write: whether it succeeded and how many bytes the sink then holds. -/
structure WriteStep where
  result : Except BufferFull Unit
  written : Nat

/-- Runs the writes in order into one sink, returning each step's report and the final sink. -/
def runWrites : List WriteOp → Sink → List WriteStep × Sink
  | [], s => ([], s)
  | op :: ops, s =>
    let (step, s') := match op.emit s with
      | .ok _ s' => ({ result := .ok (), written := s'.written : WriteStep }, s')
      | .error e s' => ({ result := .error e, written := s'.written }, s')
    let (steps, final) := runWrites ops s'
    (step :: steps, final)

/-- Encodes a message into a sink: the result and the sink afterwards. -/
def encodeInto {α : Type} [WireMessage α] (m : α) (s : Sink) : Except BufferFull Unit × Sink :=
  match Wire.encode m s with
  | .ok _ s' => (.ok (), s')
  | .error e s' => (.error e, s')

end PetFeeder.Script
