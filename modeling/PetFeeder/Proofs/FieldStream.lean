import PetFeeder.Proofs.BoundedWrites

/-!
# Reading back what a writer wrote

Write any fields one after another into a growable sink: varint, 32-bit and truth-value
fields, byte fields and nested requests or responses. Then read the output with a field reader:
for each field the next key, then the read for that field's kind (`Script.readScript`). Each
read gives back what was written (`Script.readResults`): the field's tag and wire type, then
its number, truth value or payload. A nested message's payload is exactly its encoding, which
decodes to the message. After the last field the reader finds the end of the stream.

This holds for tags from 1 to `2 ^ 32 - 1` (`Script.WriteOp.Readable`). The writer also takes
tag 0, but the reader refuses a key with tag 0: the field format reserves it
(`tag_zero_field_is_refused`).

Each field is its key, then its value (`Script.WriteOp.encoding_eq`). The reader takes the key
(`Script.WriteOp.nextKey_encoding`), then the value (`Script.WriteOp.readBack_valueBytes`),
and leaves the rest of the stream alone. The run over all fields follows by induction on the
writes (`Script.runReads_readScript`).

Main statement: `written_fields_read_back`.
-/

namespace PetFeeder

namespace Wire

/-- Moving a run of bytes into a growable sink takes exactly them off the stream. -/
theorem copy_growable (data rest : List UInt8) (s : Sink) (hs : s.capacity = none) :
    copy data.length (data ++ rest, s) = .ok () (rest, { s with bytes := s.bytes ++ data.toArray }) := by
  induction data generalizing s with
  | nil => simp [copy, pure, EStateM.pure]
  | cons b data ih =>
    have hoffer : s.offer b = ({ s with bytes := s.bytes.push b }, true) := by
      simp [Sink.offer, Sink.fits_growable_capacity s hs]
    simp only [List.length_cons, List.cons_append, copy, hoffer]
    exact (ih { s with bytes := s.bytes.push b } hs).trans (by simp [List.push_append_toArray])

/-- A length-delimited value, read into a growable sink: its length, then that many bytes. -/
theorem readBytes_lengthDelimited (t : Nat) (data rest : List UInt8)
    (hlen : data.length < 18446744073709551616) (s : Sink) (hs : s.capacity = none) :
    readBytes ⟨t, .lengthDelimited⟩ (Varint.encode data.length ++ (data ++ rest), s) =
      .ok () (rest, { s with bytes := s.bytes ++ data.toArray }) := by
  have hvar : readVarint (Varint.encode data.length ++ (data ++ rest)) = .ok data.length (data ++ rest) := by
    rw [Varint.readVarint_complete (Varint.complete_encode hlen), Varint.value_encode hlen]
  simp only [readBytes, onStream, expect, if_pos, bind, EStateM.bind, pure, EStateM.pure, hvar]
  exact copy_growable data rest s hs

end Wire

namespace Script

theorem scanStep_ok {α : Type} {x : Scan α} {wrap : α → ReadValue} {bs rest : List UInt8} {a : α}
    (h : x bs = .ok a rest) :
    scanStep x wrap bs = ({ result := .ok (wrap a), remaining := rest.length }, rest) := by
  simp [scanStep, h]

theorem runReads_cons (op : ReadOp) (ops : List ReadOp) (bs : List UInt8) :
    runReads (op :: ops) bs = (op.run bs).1 :: runReads ops (op.run bs).2 := rfl

theorem runWrites_cons_ok {op : WriteOp} {ops : List WriteOp} {s s' : Sink}
    (h : op.emit s = .ok () s') : (runWrites (op :: ops) s).2 = (runWrites ops s').2 := by
  simp only [runWrites, h]

/-- Writes into a growable sink append the encodings of the fields, one after another. -/
theorem runWrites_growable (ops : List WriteOp) (s : Sink) (hs : s.capacity = none) :
    (runWrites ops s).2 = { s with bytes := s.bytes ++ (ops.flatMap WriteOp.encoding).toArray } := by
  induction ops generalizing s with
  | nil => simp [runWrites]
  | cons op ops ih =>
    exact (runWrites_cons_ok (WriteOp.appends_emit op s hs)).trans
      ((ih { s with bytes := s.bytes ++ op.encoding.toArray } hs).trans
        (by simp [Array.append_assoc]))

/-- The output of writes into a fresh growable sink. -/
theorem output_growable (ops : List WriteOp) :
    (runWrites ops Sink.growable).2.bytes.toList = ops.flatMap WriteOp.encoding := by
  rw [runWrites_growable ops Sink.growable rfl]
  simp [Sink.growable]

namespace WriteOp

open Wire

/-- The key a field write puts in front of its value: its tag, and the wire type of its value.
A bare varint has none. -/
def key : WriteOp → Option FieldKey
  | .uint64 t _ | .uint32 t _ | .bool t _ => some ⟨t, .varint⟩
  | .bytes t _ | .request t _ | .response t _ => some ⟨t, .lengthDelimited⟩
  | .varint _ => none

/-- The bytes of a write's key. -/
def keyBytes : WriteOp → List UInt8
  | .uint64 t _ | .uint32 t _ | .bool t _ => Varint.encode (FieldKey.raw t .varint)
  | .bytes t _ | .request t _ | .response t _ => Varint.encode (FieldKey.raw t .lengthDelimited)
  | .varint _ => []

/-- The bytes of a write's value: a varint, or a length and that many bytes. -/
def valueBytes : WriteOp → List UInt8
  | .uint64 _ v | .uint32 _ v => Varint.encode v
  | .bool _ b => Varint.encode (Response.bit b)
  | .bytes _ data => Varint.encode data.length ++ data
  | .request _ q => Varint.encode (Request.encodedLen q) ++ joinFields q.fields
  | .response _ r => Varint.encode (Response.encodedLen r) ++ joinFields r.fields
  | .varint v => Varint.encode v

/-- The value a field write carries, as the matching read gives it back: a number, a truth
value, or the payload bytes, for a nested message its encoding. -/
def value : WriteOp → ReadValue
  | .uint64 _ v | .uint32 _ v => .number v
  | .bool _ b => .flag b
  | .bytes _ data => .bytes data
  | .request _ q => .bytes (joinFields q.fields)
  | .response _ r => .bytes (joinFields r.fields)
  | .varint v => .number v

/-- The read that takes back the value of a field written by `op`, for the key it wrote. -/
def readBack : WriteOp → ReadOp
  | .uint64 t _ => .readUInt64 ⟨t, .varint⟩
  | .uint32 t _ => .readUInt32 ⟨t, .varint⟩
  | .bool t _ => .readBool ⟨t, .varint⟩
  | .bytes t _ | .request t _ | .response t _ => .readBytes ⟨t, .lengthDelimited⟩ none
  | .varint _ => .readVarint

/-- A field write a reader takes back: a tag from 1 to `2 ^ 32 - 1`, a number that fits its
width, a payload whose length fits 64 bits, a nested message whose values fit theirs. A bare
varint is no field. -/
def Readable : WriteOp → Prop
  | .uint64 t v => 1 ≤ t ∧ t < 4294967296 ∧ v < 18446744073709551616
  | .uint32 t v => 1 ≤ t ∧ t < 4294967296 ∧ v < 4294967296
  | .bool t _ => 1 ≤ t ∧ t < 4294967296
  | .bytes t data => 1 ≤ t ∧ t < 4294967296 ∧ data.length < 18446744073709551616
  | .request t q => 1 ≤ t ∧ t < 4294967296 ∧ q.InRange
  | .response t r => 1 ≤ t ∧ t < 4294967296 ∧ r.InRange
  | .varint _ => False

instance : DecidablePred Readable := fun op => by
  cases op <;> unfold Readable <;> infer_instance

/-- Every write is its key, then its value. -/
theorem encoding_eq (op : WriteOp) : op.encoding = op.keyBytes ++ op.valueBytes := by
  cases op <;> simp [encoding, keyBytes, valueBytes, varintField, RawField.bytes, keyAndLength]

/-- **The key comes back.** Read from the front of a field and whatever follows it, the next
key is the one the write put there, and the value's bytes are left to read. -/
theorem nextKey_encoding {op : WriteOp} (h : op.Readable) (rest : List UInt8) :
    nextKey (op.encoding ++ rest) = .ok op.key (op.valueBytes ++ rest) := by
  rw [encoding_eq, List.append_assoc]
  cases op with
  | uint64 t v => exact nextKey_names (names_encode_raw h.1 h.2.1 _) _
  | uint32 t v => exact nextKey_names (names_encode_raw h.1 h.2.1 _) _
  | bool t b => exact nextKey_names (names_encode_raw h.1 h.2 _) _
  | bytes t data => exact nextKey_names (names_encode_raw h.1 h.2.1 _) _
  | request t q => exact nextKey_names (names_encode_raw h.1 h.2.1 _) _
  | response t r => exact nextKey_names (names_encode_raw h.1 h.2.1 _) _
  | varint v => exact absurd h id

/-- A number that fits 64 bits reads back from its varint as a field value. -/
theorem readUInt64_encode (t : Nat) {v : Nat} (hv : v < 18446744073709551616)
    (rest : List UInt8) : readUInt64 ⟨t, .varint⟩ (Varint.encode v ++ rest) = .ok v rest := by
  rw [readUInt64_varint (Varint.complete_encode hv), Varint.value_encode hv]

/-- A byte field's payload, `n` bytes long, reads back into a fresh growable sink. -/
theorem run_readBytes (t : Nat) {data : List UInt8} {n : Nat} (rest : List UInt8)
    (hlen : data.length = n) (hn : n < 18446744073709551616) :
    (ReadOp.readBytes ⟨t, .lengthDelimited⟩ none).run (Varint.encode n ++ (data ++ rest)) =
      ({ result := .ok (.bytes data), remaining := rest.length, sunk := data }, rest) := by
  subst hlen
  simp only [ReadOp.run, readBytes_lengthDelimited t data rest hn Sink.growable rfl]
  simp [Sink.growable]

/-- **The value comes back.** Read right after the key, the value's bytes give back the value
the write carried, and the stream is left at the next field. -/
theorem readBack_valueBytes {op : WriteOp} (h : op.Readable) (rest : List UInt8) :
    (op.readBack.run (op.valueBytes ++ rest)).1.result = .ok op.value ∧
      (op.readBack.run (op.valueBytes ++ rest)).2 = rest := by
  cases op with
  | uint64 t v =>
    simp [readBack, valueBytes, value, ReadOp.run, scanStep_ok (readUInt64_encode t h.2.2 rest)]
  | uint32 t v =>
    have hv : v < 4294967296 := h.2.2
    have hread : readUInt32 ⟨t, .varint⟩ (Varint.encode v ++ rest) = .ok v rest := by
      simp only [readUInt32, bind, EStateM.bind, readUInt64_encode t (by omega : v < 18446744073709551616) rest,
        pure, EStateM.pure, Nat.mod_eq_of_lt hv]
    simp [readBack, valueBytes, value, ReadOp.run, scanStep_ok hread]
  | bool t b =>
    have hread : readBool ⟨t, .varint⟩ (Varint.encode (Response.bit b) ++ rest) = .ok b rest := by
      have hbit : Response.bit b < 18446744073709551616 := by cases b <;> decide
      simp only [readBool, bind, EStateM.bind, readUInt64_encode t hbit rest, pure, EStateM.pure]
      cases b <;> rfl
    simp [readBack, valueBytes, value, ReadOp.run, scanStep_ok hread]
  | bytes t data =>
    simp [readBack, valueBytes, value, run_readBytes t rest rfl h.2.2]
  | request t q =>
    -- a nested message is a byte field whose payload is its encoding
    have hq := Request.encodedLen_le h.2.2
    simp [readBack, valueBytes, value, run_readBytes t rest (Request.length_fields q) (by omega)]
  | response t r =>
    have hr := Response.encodedLen_le h.2.2
    simp [readBack, valueBytes, value, run_readBytes t rest (Response.length_fields r) (by omega)]
  | varint v => exact absurd h id

end WriteOp

/-- The reads that take back the fields written by `ops`: for each, the next key and then the
read for its value; last, a key read that finds the end. -/
def readScript : List WriteOp → List ReadOp
  | [] => [.nextKey]
  | op :: ops => .nextKey :: op.readBack :: readScript ops

/-- What those reads give when each field comes back: its key, then its value; and at the end
no key. -/
def readResults : List WriteOp → List (Except DecodeError ReadValue)
  | [] => [.ok (.key none)]
  | op :: ops => .ok (.key op.key) :: .ok op.value :: readResults ops

/-- **Every field comes back, in order**, by induction on the writes: each field's key and
value, read from the front of the stream, leave the stream at the next field. -/
theorem runReads_readScript (ops : List WriteOp) (h : ∀ op ∈ ops, op.Readable) :
    (runReads (readScript ops) (ops.flatMap WriteOp.encoding)).map ReadStep.result =
      readResults ops := by
  induction ops with
  | nil => rfl
  | cons op ops ih =>
    have hop := h op (by simp)
    have hkey : (ReadOp.nextKey.run (op.encoding ++ ops.flatMap WriteOp.encoding)) =
        ({ result := .ok (.key op.key), remaining := _ },
          op.valueBytes ++ ops.flatMap WriteOp.encoding) :=
      scanStep_ok (WriteOp.nextKey_encoding hop _)
    obtain ⟨hval, hrest⟩ := WriteOp.readBack_valueBytes hop (ops.flatMap WriteOp.encoding)
    simp only [readScript, List.flatMap_cons, runReads_cons, hkey, hrest, List.map_cons, hval,
      readResults]
    rw [ih fun op' hop' => h op' (by simp [hop'])]

end Script

open Script in
/-- **Written fields read back.** Write any fields into a growable sink: numbers of up to 64
or 32 bits, truth values, byte strings and nested requests or responses, each with a tag from
1 to `2 ^ 32 - 1`. The sink holds their encodings one after another. Read that output from the
front, taking the next key and then the value by the read for that kind of field. Each key
names the field's tag and wire type. Each value is the number, truth value or bytes that was
written; a nested message's bytes are exactly what writing it appends, and they decode to the
message. After the last field the reader finds no key. -/
theorem written_fields_read_back (ops : List WriteOp) (h : ∀ op ∈ ops, op.Readable) :
    let out := (runWrites ops Sink.growable).2.bytes.toList
    out = ops.flatMap WriteOp.encoding ∧
    (runReads (readScript ops) out).map ReadStep.result = readResults ops ∧
    (∀ t q, WriteOp.request t q ∈ ops →
      Appends (Wire.encode q) (Wire.joinFields q.fields) ∧ Wire.decode (Wire.joinFields q.fields) = .ok q) ∧
    (∀ t r, WriteOp.response t r ∈ ops →
      Appends (Wire.encode r) (Wire.joinFields r.fields) ∧ Wire.decode (Wire.joinFields r.fields) = .ok r) := by
  intro out
  have hout : out = ops.flatMap WriteOp.encoding := output_growable ops
  refine ⟨hout, by rw [hout]; exact runReads_readScript ops h, fun t q hq => ?_, fun t r hr => ?_⟩
  · exact ⟨Request.encode_appends q, Request.decode_fields (h _ hq).2.2⟩
  · exact ⟨Response.encode_appends r, Response.decode_fields (h _ hr).2.2⟩

open Script in
/-- A number at the largest tag, a truth value, a byte field and a nested report of zero
milliseconds, written one after another and read back. -/
theorem mixed_fields_read_back :
    let ops := [WriteOp.uint64 4294967295 18446744073709551615, .bool 3 true,
      .bytes 7 [107, 105, 98, 98, 108, 101], .request 2 { sinceLastFeedMs := some 0 }]
    (∀ op ∈ ops, op.Readable) ∧
    let out := (runWrites ops Sink.growable).2.bytes.toList
    out = ops.flatMap WriteOp.encoding ∧
    (runReads (readScript ops) out).map ReadStep.result = readResults ops ∧
    (∀ t q, WriteOp.request t q ∈ ops →
      Appends (Wire.encode q) (Wire.joinFields q.fields) ∧ Wire.decode (Wire.joinFields q.fields) = .ok q) ∧
    (∀ t r, WriteOp.response t r ∈ ops →
      Appends (Wire.encode r) (Wire.joinFields r.fields) ∧ Wire.decode (Wire.joinFields r.fields) = .ok r) :=
  ⟨by decide, written_fields_read_back _ (by decide)⟩

open Script in
/-- **Tag zero does not read back.** The writer takes every 32-bit tag, zero included: a varint
field of tag 0 and number 5 is the bytes `0x00 0x05`. The reader refuses that key as an invalid
tag, reads the number that follows as a plain value, and finds the end; so the reads do not give
back the field that was written. -/
theorem tag_zero_field_is_refused :
    let ops := [WriteOp.uint64 0 5]
    let out := (runWrites ops Sink.growable).2.bytes.toList
    out = [0, 5] ∧
    (runReads (readScript ops) out).map ReadStep.result =
      [.error .invalidTag, .ok (.number 5), .ok (.key none)] ∧
    (runReads (readScript ops) out).map ReadStep.result ≠ readResults ops := by
  intro ops out
  have hout : out = [0, 5] := by
    show (runWrites ops Sink.growable).2.bytes.toList = _
    rw [output_growable]
    simp [ops, WriteOp.encoding, Wire.varintField, Wire.RawField.bytes,
      FieldKey.raw, WireType.code, Varint.encode_eq]
  have hreads : (runReads (readScript ops) out).map ReadStep.result =
      [.error .invalidTag, .ok (.number 5), .ok (.key none)] := by
    rw [hout]
    rfl
  refine ⟨hout, hreads, ?_⟩
  rw [hreads]
  simp [ops, readResults, WriteOp.key, WriteOp.value]

end PetFeeder
