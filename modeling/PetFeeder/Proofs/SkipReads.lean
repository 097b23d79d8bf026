import Mathlib
import PetFeeder.Proofs.FieldGrammar

/-!
# Passing over a value frames it as reading it does

The decoder passes over a field it does not know with `Wire.skip`, and reads a field it knows
with a typed read. The two must take the same bytes off the stream, or the next key would be
read out of place. Here that is shown for every byte string, not only for well-formed values:

* `Wire.ending`: how a read ends, with the error it reports (if any) and the bytes it leaves;
* a varint is passed over exactly as it is read, and a length-delimited value exactly as it is
  read into a growable sink (`Wire.ending_readBytes_growable`): the copy and the skip both stop
  at the first missing byte, whatever length was announced;
* fixed-width values take exactly their width, or everything when the stream is shorter
  (`Wire.dropBytes_eq`);
* a typed read given a key of another wire type consumes nothing (`Wire.readUInt32_mismatch`,
  `Wire.readBool_mismatch`, `Wire.readBytes_mismatch`).

Main statement: `skip_frames_values_as_reads_do`.
-/

namespace PetFeeder.Wire

/-- How a read on the stream ends: the error it reports, `none` when it succeeds, and the bytes
it leaves unread (taken from its state by `rest`). -/
def ending {σ α : Type} (rest : σ → List UInt8) :
    EStateM.Result DecodeError σ α → Option DecodeError × List UInt8
  | .ok _ st => (none, rest st)
  | .error e st => (some e, rest st)

@[simp] theorem ending_ok {σ α : Type} (rest : σ → List UInt8) (a : α) (st : σ) :
    ending rest (.ok a st : EStateM.Result DecodeError σ α) = (none, rest st) := rfl

@[simp] theorem ending_error {σ α : Type} (rest : σ → List UInt8) (e : DecodeError) (st : σ) :
    ending rest (.error e st : EStateM.Result DecodeError σ α) = (some e, rest st) := rfl

/-! ## Byte runs -/

/-- Passing over `n` bytes takes them, or all there are and reports the stream truncated. -/
theorem dropBytes_eq (n : Nat) (bs : List UInt8) :
    dropBytes n bs = if n ≤ bs.length then .ok () (bs.drop n) else .error .truncated [] := by
  by_cases h : n ≤ bs.length
  · rw [if_pos h]
    have hlen : (bs.take n).length = n := List.length_take_of_le h
    have hsplit := dropBytes_append (bs.take n) (bs.drop n)
    rwa [hlen, List.take_append_drop] at hsplit
  · rw [if_neg h]
    exact dropBytes_short (by omega)

/-- **Copying into a growable sink frames like dropping.** The sink takes every byte, so the
copy ends exactly where passing over the same count ends. The induction is on the count; both
stop at the first missing byte. -/
theorem ending_copy_growable (n : Nat) (bs : List UInt8) (rule : SliceRule) (old : Array UInt8) :
    ending Prod.fst (copy n (bs, ⟨none, rule, old⟩)) = ending id (dropBytes n bs) := by
  induction n generalizing bs old with
  | zero => rfl
  | succ n ih =>
    cases bs with
    | nil => rfl
    | cons b rest =>
      have hoffer : Sink.offer ⟨none, rule, old⟩ b = (⟨none, rule, old.push b⟩, true) := rfl
      simp only [copy, hoffer, dropBytes, bind, EStateM.bind, byte_cons]
      exact ih rest (old.push b)

/-! ## What a failed read reports -/

/-- Reading a varint fails only as truncated or as an overflow. -/
theorem readVarint_error {bs rest : List UInt8} {e : DecodeError}
    (h : readVarint bs = .error e rest) : e = .truncated ∨ e = .varintOverflow := by
  rcases Varint.split_prefix bs with ⟨v, r, hv, rfl⟩ | hc | hl
  · rw [Varint.readVarint_complete hv] at h
    cases h
  · rw [Varint.readVarint_cut hc] at h
    cases h
    exact .inl rfl
  · obtain ⟨r, hr⟩ := Varint.readVarint_overlong hl
    rw [hr] at h
    cases h
    exact .inr rfl

/-! ## The two framings of each wire type -/

theorem ending_skip_varint (bs : List UInt8) :
    ending id (skip .varint bs) = ending id (readVarint bs) := by
  simp only [skip, bind, EStateM.bind]
  cases readVarint bs <;> rfl

/-- **A length-delimited value, read or passed over.** Read into a growable sink it ends as
passing over it ends: the length varint first, then as many bytes as it announces. -/
theorem ending_readBytes_growable (t : Nat) (bs : List UInt8) (rule : SliceRule)
    (old : Array UInt8) :
    ending Prod.fst (readBytes ⟨t, .lengthDelimited⟩ (bs, ⟨none, rule, old⟩)) =
      ending id (skip .lengthDelimited bs) := by
  simp only [readBytes, onStream, expect, if_pos, skip, bind, EStateM.bind, pure, EStateM.pure]
  cases readVarint bs with
  | ok n rest => exact ending_copy_growable n rest rule old
  | error e rest => rfl

/-- Passing over a length-delimited value fails only as truncated or as an overflow. -/
theorem skip_lengthDelimited_error (bs : List UInt8) :
    (ending id (skip .lengthDelimited bs)).1 ∈ [none, some .truncated, some .varintOverflow] := by
  cases h : readVarint bs with
  | ok n rest =>
    -- the length is read; the bytes are there or the stream is truncated
    simp only [skip, bind, EStateM.bind, h, dropBytes_eq]
    split <;> simp
  | error e rest =>
    simp only [skip, bind, EStateM.bind, h]
    rcases readVarint_error h with rfl | rfl <;> simp

/-! ## A key of another wire type -/

variable {key : FieldKey}

theorem readUInt32_mismatch (h : key.wireType ≠ .varint) (bs : List UInt8) :
    readUInt32 key bs = .error (.wireTypeMismatch key.tag) bs := by
  simp only [readUInt32, bind, EStateM.bind, readUInt64_mismatch h bs]

theorem readBool_mismatch (h : key.wireType ≠ .varint) (bs : List UInt8) :
    readBool key bs = .error (.wireTypeMismatch key.tag) bs := by
  simp only [readBool, bind, EStateM.bind, readUInt64_mismatch h bs]

theorem readBytes_mismatch (h : key.wireType ≠ .lengthDelimited) (bs : List UInt8) (sink : Sink) :
    readBytes key (bs, sink) = .error (.wireTypeMismatch key.tag) (bs, sink) := by
  simp only [readBytes, onStream, bind, EStateM.bind, expect_mismatch key .lengthDelimited h bs]

end Wire

open Wire

/-- **Passing over a value frames it as reading it does.** On every byte string: passing over
a varint ends as reading it ends, with the same error or the same bytes left; passing over a
length-delimited value ends as reading it into a growable sink ends, and fails only as truncated
or as an overflow; fixed-width values take exactly eight or four bytes, or all there are and
report the stream truncated; and every typed read given a key of another wire type reports the
mismatch with the key's tag and consumes nothing. -/
theorem skip_frames_values_as_reads_do (bs : List UInt8) :
    ending id (skip .varint bs) = ending id (readVarint bs) ∧
      (∀ (t : Nat) (rule : SliceRule) (old : Array UInt8),
        ending Prod.fst (readBytes ⟨t, .lengthDelimited⟩ (bs, ⟨none, rule, old⟩)) =
          ending id (skip .lengthDelimited bs)) ∧
      (ending id (skip .lengthDelimited bs)).1 ∈ [none, some .truncated, some .varintOverflow] ∧
      skip .fixed64 bs = (if 8 ≤ bs.length then .ok () (bs.drop 8) else .error .truncated []) ∧
      skip .fixed32 bs = (if 4 ≤ bs.length then .ok () (bs.drop 4) else .error .truncated []) ∧
      ∀ key : FieldKey,
        (key.wireType ≠ .varint →
          readUInt64 key bs = .error (.wireTypeMismatch key.tag) bs ∧
            readUInt32 key bs = .error (.wireTypeMismatch key.tag) bs ∧
            readBool key bs = .error (.wireTypeMismatch key.tag) bs) ∧
        (key.wireType ≠ .lengthDelimited → ∀ sink : Sink,
          readBytes key (bs, sink) = .error (.wireTypeMismatch key.tag) (bs, sink)) :=
  ⟨ending_skip_varint bs, fun t rule old => ending_readBytes_growable t bs rule old,
    skip_lengthDelimited_error bs, dropBytes_eq 8 bs, dropBytes_eq 4 bs,
    fun _ => ⟨fun h => ⟨readUInt64_mismatch h bs, readUInt32_mismatch h bs, readBool_mismatch h bs⟩,
      fun h sink => readBytes_mismatch h bs sink⟩⟩

/-- A key of tag 1 that says its value is four bytes, given to a varint read: refused with tag 1,
and the four bytes stay. -/
theorem fixed32_key_refused_by_varint_read :
    (⟨1, .fixed32⟩ : FieldKey).wireType ≠ .varint ∧
      readUInt64 ⟨1, .fixed32⟩ [0, 0, 0, 0] = .error (.wireTypeMismatch 1) [0, 0, 0, 0] :=
  ⟨by decide,
    (((skip_frames_values_as_reads_do [0, 0, 0, 0]).2.2.2.2.2 ⟨1, .fixed32⟩).1 (by decide)).1⟩

end PetFeeder
