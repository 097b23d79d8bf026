import Mathlib
import PetFeeder.Proofs.BoundedWrites

/-!
# Field sizes

The writer announces the size of a field before it writes it: `Varint.length` counts a varint
from the bit length of its number, and `Wire.keyLength`, `Wire.uint64FieldLength` and
`Wire.lengthDelimitedFieldLength` add such counts up. None of them runs the encoder, so each
must agree with it on its own.

* `length_eq_bitLength`: a varint takes one byte per started group of seven bits, zero
  counting as one bit.
* `Adds x n`: on every growable sink the writer `x` succeeds and adds exactly `n` bytes. The
  varint, key, varint-field and byte-field writers each add the count announced for them.
* `lengthDelimitedFieldLength?_eq`: the size of a byte field is the exact sum as a 64-bit word
  unless the payload length is within `keyLength t + 10` of `2 ^ 64`, where the sum overflows.

Main statement: `field_lengths_count_written_bytes`.
-/

namespace PetFeeder

open Wire

/-! ## Counting from the bit length -/

namespace Varint

/-- Mathlib's bit length of a nonzero number is one more than the position of its top bit. -/
theorem size_eq_log2_add_one {v : Nat} (h : v ≠ 0) : v.size = v.log2 + 1 := by
  apply le_antisymm
  · exact Nat.size_le.2 Nat.lt_log2_self
  · exact Nat.lt_size.2 (Nat.log2_self_le h)

/-- **The bit-length count.** A varint takes `⌈max 1 (bits v) / 7⌉` bytes. -/
theorem length_eq_bitLength (v : Nat) : length v = (max 1 v.size + 6) / 7 := by
  rw [length_eq_log2]
  by_cases h : v = 0
  · subst h; rfl
  · rw [size_eq_log2_add_one h]
    omega

/-- Past `2 ^ (7 * k)` a varint takes more than `k` bytes. -/
theorem lt_length_of_le {v k : Nat} (h : 2 ^ (7 * k) ≤ v) : k < length v := by
  have hv : v ≠ 0 := Nat.pos_iff_ne_zero.1 (Nat.lt_of_lt_of_le (Nat.two_pow_pos _) h)
  have := (Nat.le_log2 hv).2 h
  rw [length_eq_log2]
  omega

end Varint

/-! ## Writers that add a fixed count -/

/-- On every growable sink the writer `x` succeeds and adds exactly `n` bytes. -/
def Adds (x : Emit Unit) (n : Nat) : Prop :=
  ∀ s : Sink, s.capacity = none → ∃ s', x s = .ok () s' ∧ s'.written = s.written + n

theorem Appends.adds {x : Emit Unit} {bs : List UInt8} (h : Appends x bs) : Adds x bs.length :=
  fun s hs => ⟨_, h s hs, by simp [Sink.written]⟩

namespace Wire

theorem adds_writeVarint (v : Nat) : Adds (writeVarint v) (Varint.length v) := by
  simpa using (Appends.writeVarint v).adds

theorem raw_eq_shiftLeft_or (t : Nat) (w : WireType) : FieldKey.raw t w = t <<< 3 ||| w.code := by
  have hw : w.code < 2 ^ 3 := w.code_lt_eight
  rw [FieldKey.raw, Nat.shiftLeft_eq, Nat.mul_comm t, ← Nat.two_pow_add_eq_or_of_lt hw]

theorem adds_writeKey (t : Nat) (w : WireType) : Adds (writeKey t w) (keyLength t) := by
  simpa [writeKey, keyLength_raw] using adds_writeVarint (FieldKey.raw t w)

theorem adds_writeUInt64 (t v : Nat) : Adds (writeUInt64 t v) (uint64FieldLength t v) := by
  simpa [length_varintField] using (appends_writeUInt64 t v).adds

theorem adds_writeBytes (t : Nat) (p : List UInt8) :
    Adds (writeBytes t p) (lengthDelimitedFieldLength t p.length) := by
  have h := (Script.WriteOp.appends_emit (.bytes t p)).adds
  simpa [Script.WriteOp.emit, Script.WriteOp.encoding, keyAndLength, keyLength_raw,
    lengthDelimitedFieldLength, Nat.add_assoc] using h

/-- A 32-bit tag makes a key of at most five bytes. -/
theorem keyLength_le_five {t : Nat} (ht : t < 4294967296) : keyLength t ≤ 5 :=
  Varint.length_le_of_lt 4 (t * 8) (by rw [show Nat.pow 128 5 = 34359738368 from rfl]; omega)

/-- **When the size of a byte field fits in a word.** The sum `keyLength t + length n + n`
stays below `2 ^ 64` exactly when `n` is more than `keyLength t + 10` below it: a length that
close to the limit takes ten bytes as a varint. -/
theorem lengthDelimitedFieldLength?_eq {t : Nat} (ht : t < 4294967296) (n : Nat) :
    lengthDelimitedFieldLength? t n =
      if n + keyLength t + 10 < 18446744073709551616 then
        some (keyLength t + Varint.length n + n)
      else none := by
  have hk := keyLength_le_five ht
  have hsum : lengthDelimitedFieldLength t n = keyLength t + Varint.length n + n := rfl
  rw [lengthDelimitedFieldLength?, hsum]
  by_cases hn : n < 9223372036854775808
  · -- a length below `2 ^ 63` takes at most nine bytes, and everything fits
    have hl : Varint.length n ≤ 9 :=
      Varint.length_le_of_lt 8 n (by rw [show Nat.pow 128 9 = 9223372036854775808 from rfl]; omega)
    rw [if_pos (by omega), if_pos (by omega)]
  · have hl : 9 < Varint.length n := Varint.lt_length_of_le (by simpa using hn)
    by_cases hsmall : n + keyLength t + 10 < 18446744073709551616
    · have hl' : Varint.length n ≤ 10 := Varint.length_le_ten n (by omega)
      rw [if_pos (by omega), if_pos hsmall]
    · rw [if_neg (by omega), if_neg hsmall]

end Wire

/-- **Field sizes count the bytes written.** For every 32-bit tag `t`, number `v` and payload
length `n`: the varint of `v` takes `⌈max 1 (bits v) / 7⌉` bytes and its writer adds that many;
every key of tag `t`, the varint of `t <<< 3 ||| code`, takes `keyLength t` bytes whatever its
wire type; a varint field adds `uint64FieldLength t v` bytes; a byte field with an `n`-byte
payload adds `keyLength t + length n + n` bytes, and the 64-bit size function returns that sum
unless `n` lies within `keyLength t + 10` of `2 ^ 64`, where the sum overflows. -/
theorem field_lengths_count_written_bytes (t v n : Nat) (ht : t < 4294967296) :
    (Adds (writeVarint v) (Varint.length v) ∧ Varint.length v = (max 1 v.size + 6) / 7) ∧
      (∀ w : WireType, (Varint.encode (t <<< 3 ||| w.code)).length = keyLength t ∧
        Adds (writeKey t w) (keyLength t)) ∧
      Adds (writeUInt64 t v) (uint64FieldLength t v) ∧
      (∀ p : List UInt8, p.length = n → Adds (writeBytes t p) (keyLength t + Varint.length n + n)) ∧
      lengthDelimitedFieldLength? t n =
        if n + keyLength t + 10 < 18446744073709551616 then
          some (keyLength t + Varint.length n + n)
        else none := by
  refine ⟨⟨adds_writeVarint v, Varint.length_eq_bitLength v⟩, fun w => ⟨?_, adds_writeKey t w⟩,
    adds_writeUInt64 t v, ?_, lengthDelimitedFieldLength?_eq ht n⟩
  · rw [← raw_eq_shiftLeft_or, Varint.length_encode, keyLength_raw]
  · rintro p rfl
    exact adds_writeBytes t p

/-- The sizes at tag 7 for the number 300 and a six-byte payload. -/
theorem kibble_field_sizes :
    (7 : Nat) < 4294967296 ∧
      ((Adds (writeVarint 300) (Varint.length 300) ∧
          Varint.length 300 = (max 1 (300 : Nat).size + 6) / 7) ∧
        (∀ w : WireType, (Varint.encode (7 <<< 3 ||| w.code)).length = keyLength 7 ∧
          Adds (writeKey 7 w) (keyLength 7)) ∧
        Adds (writeUInt64 7 300) (uint64FieldLength 7 300) ∧
        (∀ p : List UInt8, p.length = 6 → Adds (writeBytes 7 p) (keyLength 7 + Varint.length 6 + 6)) ∧
        lengthDelimitedFieldLength? 7 6 =
          if 6 + keyLength 7 + 10 < 18446744073709551616 then
            some (keyLength 7 + Varint.length 6 + 6)
          else none) :=
  ⟨by decide, field_lengths_count_written_bytes 7 300 6 (by decide)⟩

/-- A payload length of `2 ^ 64 - 1` makes the size of its field overflow a 64-bit word. -/
theorem max_payload_field_size_overflows :
    lengthDelimitedFieldLength 1 18446744073709551615 = 18446744073709551626 ∧
      lengthDelimitedFieldLength? 1 18446744073709551615 = none := by
  decide

end PetFeeder
