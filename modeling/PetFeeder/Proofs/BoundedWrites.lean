import PetFeeder.Proofs.CheckInRun
import PetFeeder.Script.Wire

/-!
# Writing into a sink that fills up

A bounded sink has room for some number `f` of further bytes (`Sink.Room`). A write either fits,
and then appends all it writes, or stops with `BufferFull`. What the sink keeps after the stop
depends on how the write puts its bytes:

* byte by byte (`Sink.putEach`): the sink keeps the first `f` bytes (`Sink.putEach_room`);
* as one slice taken whole (`Sink.putSlice` on a sink that takes slices whole): the sink keeps
  none of the slice (`Sink.putSlice_whole_room`).

Varints, keys and lengths go in byte by byte, and so does every field of a message. A writer
that only puts bytes one at a time (`PutsEach`) is the byte-wise put of its whole output. Only a
byte field's payload goes in as a slice. So every field write keeps the first `f` bytes of its
encoding, except that a sink taking slices whole keeps a byte field's key and length without
its payload (`Script.WriteOp.emit_room`). Bytes the sink held before are never touched.

Main statement: `field_writes_keep_what_fits`.
-/

namespace PetFeeder

namespace Sink

/-- The sink has room for exactly `f` more bytes. -/
def Room (s : Sink) (f : Nat) : Prop := s.capacity = some (s.written + f)

theorem room_bounded (n : Nat) : (bounded n).Room n := by
  simp [Room, bounded, written]

theorem room_bytewise (n : Nat) : (bytewise (some n)).Room n := by
  simp [Room, bytewise, written]

variable {s : Sink} {f : Nat}

theorem fits_of_room (h : s.Room f) (n : Nat) : s.fits n = decide (n ≤ f) := by
  unfold fits
  rw [h]
  exact decide_eq_decide.2 (by omega)

theorem Room.push (h : s.Room (f + 1)) (b : UInt8) : { s with bytes := s.bytes.push b }.Room f := by
  simp only [Room, written, Array.size_push] at h ⊢
  rw [h]
  congr 1
  omega

theorem Room.append (h : s.Room f) {bs : List UInt8} (hl : bs.length ≤ f) :
    { s with bytes := s.bytes ++ bs.toArray }.Room (f - bs.length) := by
  simp only [Room, written, Array.size_append, List.size_toArray] at h ⊢
  rw [h]
  congr 1
  omega

/-- **Bytes put one at a time** all go in when they fit; otherwise the first `f` go in and the
write stops. -/
theorem putEach_room (h : s.Room f) (bs : List UInt8) :
    putEach bs s = if bs.length ≤ f then .ok () { s with bytes := s.bytes ++ bs.toArray }
      else .error .full { s with bytes := s.bytes ++ (bs.take f).toArray } := by
  induction bs generalizing s f with
  | nil => simp [putEach, pure, EStateM.pure]
  | cons b bs ih =>
    cases f with
    | zero =>
      -- no room: the first byte is refused and the sink stays as it was
      have hfull : s.fits 1 = false := by rw [fits_of_room h]; rfl
      simp [putEach, bind, EStateM.bind, put_full s b hfull]
    | succ f =>
      have hroom : s.fits 1 = true := by rw [fits_of_room h]; simp
      simp only [putEach, bind, EStateM.bind, put_written s b hroom, ih (h.push b),
        List.length_cons, Nat.add_le_add_iff_right, List.take_succ_cons]
      split <;> simp only [List.push_append_toArray]

theorem putEach_of_le (h : s.Room f) {bs : List UInt8} (hl : bs.length ≤ f) :
    putEach bs s = .ok () { s with bytes := s.bytes ++ bs.toArray } := by
  rw [putEach_room h, if_pos hl]

theorem putEach_of_lt (h : s.Room f) {bs : List UInt8} (hl : f < bs.length) :
    putEach bs s = .error .full { s with bytes := s.bytes ++ (bs.take f).toArray } := by
  rw [putEach_room h, if_neg (by omega)]

/-- **A slice taken whole** goes in when it fits and leaves the sink as it was otherwise. -/
theorem putSlice_whole_room (hr : s.rule = .whole) (h : s.Room f) (bs : List UInt8) :
    putSlice bs s = if bs.length ≤ f then .ok () { s with bytes := s.bytes ++ bs.toArray }
      else .error .full s := by
  simp [putSlice, hr, fits_of_room h]

theorem putSlice_bytewise (hr : s.rule = .bytewise) (bs : List UInt8) :
    putSlice bs s = putEach bs s := by
  simp [putSlice, hr]

/-- Putting two runs of bytes one at a time is putting the two runs one after the other. -/
theorem putEach_append (a b : List UInt8) (s : Sink) :
    putEach (a ++ b) s = (putEach a >>= fun _ => putEach b) s := by
  induction a generalizing s with
  | nil => rfl
  | cons x a ih =>
    simp only [List.cons_append, putEach, bind, EStateM.bind]
    cases put x s with
    | ok _ s' => exact ih s'
    | error e s' => rfl

/-- A write whose outcome turns on `p` succeeds exactly when `p` holds. -/
theorem exists_ok_ite (p : Prop) [Decidable p] (a b : Sink) (e : BufferFull) :
    (∃ s', (if p then EStateM.Result.ok () a else .error e b) = .ok () s') ↔ p := by
  split
  · exact iff_of_true ⟨_, rfl⟩ ‹_›
  · exact iff_of_false (fun ⟨_, h⟩ => nomatch h) ‹_›

/-- A write that succeeds hands its sink on to the next one. -/
theorem then_ok {x y : Emit Unit} {s s' : Sink} (h : x s = .ok () s') :
    (x >>= fun _ => y) s = y s' := by
  simp only [bind, EStateM.bind, h]

/-- A write that fails stops the writes after it. -/
theorem then_error {x y : Emit Unit} {s s' : Sink} {e : BufferFull} (h : x s = .error e s') :
    (x >>= fun _ => y) s = .error e s' := by
  simp only [bind, EStateM.bind, h]

end Sink

/-! ## Writers that put bytes one at a time -/

/-- The writer `x` puts the bytes `bs` into the sink one at a time, stopping at the first that
does not fit. -/
def PutsEach (x : Emit Unit) (bs : List UInt8) : Prop := ∀ s, x s = Sink.putEach bs s

namespace PutsEach

theorem pure : PutsEach (Pure.pure ()) [] := fun _ => rfl

theorem bind {x y : Emit Unit} {a b : List UInt8} (hx : PutsEach x a) (hy : PutsEach y b) :
    PutsEach (x >>= fun _ => y) (a ++ b) := by
  intro s
  rw [Sink.putEach_append]
  simp only [Bind.bind, EStateM.bind, hx s]
  cases Sink.putEach a s with
  | ok _ s' => exact hy s'
  | error e s' => rfl

theorem writeVarint (v : Nat) : PutsEach (Wire.writeVarint v) (Varint.encode v) := fun _ => rfl

/-- On a growable sink, putting bytes one at a time appends them all. -/
theorem appends {x : Emit Unit} {bs : List UInt8} (h : PutsEach x bs) : Appends x bs :=
  fun s hs => (h s).trans (Sink.putEach_growable bs s hs)

end PutsEach

namespace Wire

theorem putsEach_writeUInt64 (t v : Nat) : PutsEach (writeUInt64 t v) (varintField t v).bytes :=
  (PutsEach.writeVarint _).bind (PutsEach.writeVarint v)

theorem putsEach_writeOpt (t : Nat) (o : Option Nat) :
    PutsEach (writeOpt t o) (joinFields (optField t o)) := by
  cases o with
  | none => exact PutsEach.pure
  | some v => simpa [optField, writeOpt] using putsEach_writeUInt64 t v

/-- The key and the length of a length-delimited field of tag `t` carrying `n` bytes. -/
def keyAndLength (t n : Nat) : List UInt8 :=
  Varint.encode (FieldKey.raw t .lengthDelimited) ++ Varint.encode n

/-- A writer framed by the key and length of a length-delimited field puts them first. -/
theorem putsEach_framed (t n : Nat) {y : Emit Unit} {bs : List UInt8} (hy : PutsEach y bs) :
    PutsEach (do writeKey t .lengthDelimited; writeVarint n; y) (keyAndLength t n ++ bs) := by
  rw [keyAndLength, List.append_assoc]
  exact (PutsEach.writeVarint _).bind ((PutsEach.writeVarint n).bind hy)

end Wire

namespace Response

theorem putsEach_writeFields (r : Response) : PutsEach (writeFields r) (Wire.joinFields r.fields) := by
  rw [writeFields_eq]
  simp only [fields, Wire.joinFields_append, List.append_assoc]
  exact (Wire.putsEach_writeOpt 1 _).bind ((Wire.putsEach_writeOpt 2 _).bind
    ((Wire.putsEach_writeOpt 3 _).bind (Wire.putsEach_writeOpt 4 _)))

end Response

namespace Request

theorem putsEach_writeFields (q : Request) : PutsEach (writeFields q) (Wire.joinFields q.fields) := by
  have : writeFields q = Wire.writeOpt 1 q.sinceLastFeedMs := by
    rcases q with ⟨o⟩
    cases o <;> rfl
  rw [this]
  exact Wire.putsEach_writeOpt 1 _

end Request

namespace Wire

/-- A nested message goes in byte by byte: its key, its announced length, then its fields. -/
theorem putsEach_writeMessage {α : Type} [WireMessage α] (t : Nat) (m : α) {bs : List UInt8}
    (hm : PutsEach (WireMessage.writeFields m) bs) :
    PutsEach (writeMessage t m) (keyAndLength t (WireMessage.encodedLen m) ++ bs) :=
  putsEach_framed t _ hm

/-- A byte field puts its key and length one at a time, then its payload as one slice. -/
theorem writeBytes_eq (t : Nat) (data : List UInt8) (s : Sink) :
    writeBytes t data s = (Sink.putEach (keyAndLength t data.length) >>= fun _ =>
      Sink.putSlice data) s := by
  simp only [writeBytes, writeKey, writeVarint, keyAndLength, Sink.putEach_append, bind,
    EStateM.bind]
  cases Sink.putEach (Varint.encode (FieldKey.raw t .lengthDelimited)) s <;> rfl

end Wire

/-! ## Every field write -/

namespace Script.WriteOp

open Wire

/-- The whole encoding of a write: what it appends to a sink with room for all of it. -/
def encoding : WriteOp → List UInt8
  | .uint64 tag v => (varintField tag v).bytes
  | .uint32 tag v => (varintField tag v).bytes
  | .bool tag b => (varintField tag (Response.bit b)).bytes
  | .bytes tag data => keyAndLength tag data.length ++ data
  | .request tag q => keyAndLength tag (Request.encodedLen q) ++ joinFields q.fields
  | .response tag r => keyAndLength tag (Response.encodedLen r) ++ joinFields r.fields
  | .varint v => Varint.encode v

/-- Every write but a byte field puts its whole encoding one byte at a time. -/
theorem putsEach_emit {op : WriteOp} (h : ∀ tag data, op ≠ .bytes tag data) :
    PutsEach op.emit op.encoding := by
  cases op with
  | uint64 tag v => exact putsEach_writeUInt64 tag v
  | uint32 tag v => exact putsEach_writeUInt64 tag v
  | bool tag b => cases b <;> exact putsEach_writeUInt64 tag _
  | bytes tag data => exact absurd rfl (h tag data)
  | request tag q => exact putsEach_writeMessage tag q (Request.putsEach_writeFields q)
  | response tag r => exact putsEach_writeMessage tag r (Response.putsEach_writeFields r)
  | varint v => exact PutsEach.writeVarint v

/-- On a growable sink every write appends its whole encoding. -/
theorem appends_emit (op : WriteOp) : Appends op.emit op.encoding := by
  by_cases h : ∃ tag data, op = .bytes tag data
  · obtain ⟨tag, data, rfl⟩ := h
    have hw := (Appends.writeVarint (FieldKey.raw tag .lengthDelimited)).bind
      ((Appends.writeVarint data.length).bind (CheckIn.appends_putSlice data))
    rw [encoding, keyAndLength, List.append_assoc]
    exact hw
  · exact (putsEach_emit fun tag data he => h ⟨tag, data, he⟩).appends

/-- The part of a write that goes in byte by byte: all of it, but for a byte field only its key
and length, its payload going in as one slice. -/
def eagerPart : WriteOp → List UInt8
  | .bytes tag data => keyAndLength tag data.length
  | op => op.encoding

/-- What a sink with room for `f` bytes keeps of a write that does not fit: the first `f` bytes
of its encoding, but only of its byte-by-byte part when the sink takes slices whole. -/
def keptOnFull (op : WriteOp) (rule : SliceRule) (f : Nat) : List UInt8 :=
  match rule with
  | .bytewise => op.encoding.take f
  | .whole => op.eagerPart.take f

variable {s : Sink} {f : Nat}

/-- A byte field on a sink with room for `f` bytes: the key and length go in byte by byte, then
the payload by the sink's rule for slices. -/
theorem emit_bytes_room (h : s.Room f) (tag : Nat) (data : List UInt8) :
    (WriteOp.bytes tag data).emit s =
      if (keyAndLength tag data.length ++ data).length ≤ f then
        .ok () { s with bytes := s.bytes ++ (keyAndLength tag data.length ++ data).toArray }
      else .error .full
        { s with bytes := s.bytes ++ ((WriteOp.bytes tag data).keptOnFull s.rule f).toArray } := by
  obtain ⟨cap, rule, bytes⟩ := s
  rw [emit, writeBytes_eq]
  by_cases hk : (keyAndLength tag data.length).length ≤ f
  · -- key and length fit; the payload goes in by the sink's rule, into what room is left
    have h' := h.append hk
    simp only [bind, EStateM.bind, Sink.putEach_of_le h hk]
    cases rule with
    | bytewise =>
      simp only [Sink.putSlice_bytewise, Sink.putEach_room h', keptOnFull, encoding,
        List.length_append, List.take_append, List.take_of_length_le hk]
      split <;> split <;> first | omega | simp [Array.append_assoc]
    | whole =>
      have h'' : Sink.Room ⟨cap, .whole, bytes ++ (keyAndLength tag data.length).toArray⟩
          (f - (keyAndLength tag data.length).length) := h'
      simp only [Sink.putSlice_whole_room rfl h'', keptOnFull, eagerPart, List.length_append,
        List.take_of_length_le hk]
      split <;> split <;> first | omega | simp [Array.append_assoc]
  · -- the key and length alone do not fit: the write stops inside them
    have hlt : f < (keyAndLength tag data.length).length := by omega
    simp only [bind, EStateM.bind, Sink.putEach_of_lt h hlt]
    rw [if_neg (by simp only [List.length_append]; omega)]
    cases rule <;> simp [keptOnFull, encoding, eagerPart, List.take_append_of_le_length hlt.le]

/-- **What a write leaves in a sink with room for `f` bytes.** Its whole encoding when that
fits; otherwise it stops with `BufferFull`, keeping the first `f` bytes of its encoding, or of
its byte-by-byte part on a sink that takes slices whole. -/
theorem emit_room (op : WriteOp) (h : s.Room f) :
    op.emit s =
      if op.encoding.length ≤ f then .ok () { s with bytes := s.bytes ++ op.encoding.toArray }
      else .error .full { s with bytes := s.bytes ++ (op.keptOnFull s.rule f).toArray } := by
  by_cases hb : ∃ tag data, op = .bytes tag data
  · obtain ⟨tag, data, rfl⟩ := hb
    exact emit_bytes_room h tag data
  · -- every other write puts its encoding byte by byte, whatever the sink's rule
    have hkept : op.keptOnFull s.rule f = op.encoding.take f := by
      cases op <;> first | exact absurd ⟨_, _, rfl⟩ hb | cases s.rule <;> rfl
    rw [putsEach_emit (fun tag data he => hb ⟨tag, data, he⟩) s, Sink.putEach_room h, hkept]

end Script.WriteOp

/-- A message written byte by byte into an empty bounded sink: it fails exactly when its
encoding is longer than the sink, and then leaves the first bytes of it, as many as fit. -/
theorem encode_bounded {α : Type} [WireMessage α] (m : α) {full : List UInt8}
    (hm : PutsEach (WireMessage.writeFields m) full) (hlen : full.length = WireMessage.encodedLen m)
    (n : Nat) :
    ((∃ s', Wire.encode m (Sink.bounded n) = .ok () s') ↔ WireMessage.encodedLen m ≤ n) ∧
      (n < WireMessage.encodedLen m →
        Wire.encode m (Sink.bounded n) = .error .full { Sink.bounded n with bytes := (full.take n).toArray }) := by
  have hw : Wire.encode m (Sink.bounded n) = Sink.putEach full (Sink.bounded n) := hm _
  rw [← hlen]
  refine ⟨?_, fun hlt => ?_⟩
  · rw [hw, Sink.putEach_room (Sink.room_bounded n)]
    exact Sink.exists_ok_ite _ _ _ _
  · rw [hw, Sink.putEach_of_lt (Sink.room_bounded n) hlt]
    simp [Sink.bounded]

open Script in
/-- **A write keeps what fits.** Take any field write (a varint, a 32-bit or a truth-value field,
a byte field, a nested request or response, or a bare varint) and any bounded sink that holds
`old` and has room for `f` more bytes, taking slices whole or byte by byte. The write appends its
whole encoding to a growable sink. On the bounded sink it succeeds exactly when its encoding
fits in `f` bytes, and then appends all of it. Otherwise it fails with `BufferFull`, and the sink
holds `old` followed by the first `f` bytes of the encoding. The exception is a byte field on a
sink that takes slices whole: there the sink keeps the first `f` bytes of the key and length
only, never part of the payload. A request or a response written into an empty bounded sink of
`n` bytes fails exactly when its length exceeds `n`, and then leaves the first `n` bytes of its
encoding. -/
theorem field_writes_keep_what_fits (op : WriteOp) (rule : SliceRule) (old : List UInt8)
    (f : Nat) :
    let s : Sink := ⟨some (old.length + f), rule, old.toArray⟩
    Appends op.emit op.encoding ∧
    ((∃ s', op.emit s = .ok () s') ↔ op.encoding.length ≤ f) ∧
    (op.encoding.length ≤ f → op.emit s = .ok () { s with bytes := (old ++ op.encoding).toArray }) ∧
    (f < op.encoding.length → rule = .bytewise →
      op.emit s = .error .full { s with bytes := (old ++ op.encoding.take f).toArray }) ∧
    (f < op.encoding.length → rule = .whole → (∀ tag data, op ≠ .bytes tag data) →
      op.emit s = .error .full { s with bytes := (old ++ op.encoding.take f).toArray }) ∧
    (∀ tag data, op = .bytes tag data → f < op.encoding.length → rule = .whole →
      op.emit s = .error .full
        { s with bytes := (old ++ (Wire.keyAndLength tag data.length).take f).toArray }) ∧
    (∀ (r : Response) (n : Nat), Appends (Wire.encode r) (Wire.joinFields r.fields) ∧
      (Wire.joinFields r.fields).length = WireMessage.encodedLen r ∧
      ((∃ s', Wire.encode r (Sink.bounded n) = .ok () s') ↔ WireMessage.encodedLen r ≤ n) ∧
      (n < WireMessage.encodedLen r → Wire.encode r (Sink.bounded n) =
        .error .full { Sink.bounded n with bytes := ((Wire.joinFields r.fields).take n).toArray })) ∧
    (∀ (q : Request) (n : Nat), Appends (Wire.encode q) (Wire.joinFields q.fields) ∧
      (Wire.joinFields q.fields).length = WireMessage.encodedLen q ∧
      ((∃ s', Wire.encode q (Sink.bounded n) = .ok () s') ↔ WireMessage.encodedLen q ≤ n) ∧
      (n < WireMessage.encodedLen q → Wire.encode q (Sink.bounded n) =
        .error .full { Sink.bounded n with bytes := ((Wire.joinFields q.fields).take n).toArray })) := by
  intro s
  have hroom : s.Room f := by simp [s, Sink.Room, Sink.written]
  have hemit := WriteOp.emit_room op hroom
  -- the old bytes followed by new ones, as the sink holds them
  have hbytes : ∀ bs : List UInt8, s.bytes ++ bs.toArray = (old ++ bs).toArray := by simp [s]
  refine ⟨WriteOp.appends_emit op, ?_, fun hle => ?_, fun hlt hr => ?_, fun hlt hr hb => ?_,
    fun tag data hop hlt hr => ?_, fun r n => ?_, fun q n => ?_⟩
  · rw [hemit]
    exact Sink.exists_ok_ite _ _ _ _
  · rw [hemit, if_pos hle, hbytes]
  · rw [hemit, if_neg (by omega), hbytes]
    simp [s, hr, WriteOp.keptOnFull]
  · rw [hemit, if_neg (by omega), hbytes]
    cases op <;> first | exact absurd rfl (hb _ _) | simp [s, hr, WriteOp.keptOnFull, WriteOp.eagerPart]
  · subst hop
    rw [hemit, if_neg (by omega), hbytes]
    simp [s, hr, WriteOp.keptOnFull, WriteOp.eagerPart]
  · exact ⟨Response.encode_appends r, Response.length_fields r,
      encode_bounded r (Response.putsEach_writeFields r) (Response.length_fields r) n⟩
  · exact ⟨Request.encode_appends q, Request.length_fields q,
      encode_bounded q (Request.putsEach_writeFields q) (Request.length_fields q) n⟩

end PetFeeder
