/-!
# Varints

A varint writes a number in base 128, least significant digit first, one digit per byte. Every
byte but the last carries the continuation bit `0x80`. Numbers on the wire are 64-bit words,
so a varint takes one to ten bytes.

The length of a varint is computed from the number's bit length, not by encoding it.
`length_eq` says the count still peels one base-128 digit at a time.

Main statements: `length_encode` (the length function counts the bytes of `encode`), and
`length_le_ten` (a word never needs more than ten bytes).
-/

namespace PetFeeder.Varint

/-- The varint bytes of `v`: base-128 digits, least significant first, with the continuation
bit on every byte but the last. -/
def encode (v : Nat) : List UInt8 :=
  if v < 128 then [v.toUInt8] else (v % 128 + 128).toUInt8 :: encode (v / 128)
termination_by v
decreasing_by omega

/-- How many bytes the varint of `v` takes, computed from the bit length rather than by
encoding: the bits of `v ||| 1` (so that zero counts as one bit), in groups of seven rounded up. -/
def length (v : Nat) : Nat := ((v ||| 1).log2 + 1 + 6) / 7

theorem encode_eq (v : Nat) :
    encode v = if v < 128 then [v.toUInt8] else (v % 128 + 128).toUInt8 :: encode (v / 128) := by
  rw [encode]

/-- Setting the lowest bit never moves the highest one. -/
theorem log2_or_one (v : Nat) : (v ||| 1).log2 = v.log2 := by
  have hdiv : (v ||| 1) / 2 = v / 2 := by simp [Nat.or_div_two]
  have hodd : (v ||| 1) % 2 = 1 := Nat.or_mod_two_eq_one.2 (.inr rfl)
  rw [Nat.log2_def (v ||| 1), Nat.log2_def v, hdiv]
  by_cases h : 2 ≤ v
  · have : 2 ≤ v ||| 1 := by omega
    simp [h, this]
  · have : ¬ 2 ≤ v ||| 1 := by omega
    simp [h, this]

/-- Dropping a base-128 digit drops seven bits. -/
theorem log2_div_128 {v : Nat} (h : 128 ≤ v) : v.log2 = (v / 128).log2 + 7 := by
  have hq : v / 128 ≠ 0 := by omega
  have hlo := Nat.log2_self_le hq
  have hhi := Nat.lt_log2_self (n := v / 128)
  have e7 : 2 ^ ((v / 128).log2 + 7) = 2 ^ (v / 128).log2 * 128 := by rw [Nat.pow_add]
  have e8 : 2 ^ ((v / 128).log2 + 7 + 1) = 2 ^ ((v / 128).log2 + 1) * 128 := by
    rw [Nat.add_right_comm, Nat.pow_add]
  rw [Nat.log2_eq_iff (by omega), e7, e8]
  constructor <;> omega

theorem log2_lt_seven {v : Nat} (h : v < 128) : v.log2 < 7 := by
  by_cases h0 : v = 0
  · simp [h0]
  · exact (Nat.log2_lt h0).2 h

theorem length_eq_log2 (v : Nat) : length v = (v.log2 + 7) / 7 := by
  simp only [length, log2_or_one]

/-- The bit-length count peels one base-128 digit at a time, as the encoder does. -/
theorem length_eq (v : Nat) : length v = if v < 128 then 1 else length (v / 128) + 1 := by
  rw [length_eq_log2, length_eq_log2 (v / 128)]
  split
  · next h => have := log2_lt_seven h; omega
  · next h => rw [log2_div_128 (by omega)]; omega

@[simp] theorem length_encode (v : Nat) : (encode v).length = length v := by
  induction v using Nat.strongRecOn with
  | ind v ih =>
    rw [encode_eq, length_eq]
    split
    · rfl
    · simp only [List.length_cons]
      rw [ih (v / 128) (by omega)]

theorem length_pos (v : Nat) : 0 < length v := by
  rw [length_eq]; split <;> omega

/-- A number below `128 ^ k` takes at most `k` bytes, once `k ≥ 1`. -/
theorem length_le_of_lt (k : Nat) : ∀ v, v < Nat.pow 128 (k + 1) → length v ≤ k + 1 := by
  induction k with
  | zero => intro v hv; rw [length_eq]; simp at hv; simp [hv]
  | succ k ih =>
    intro v hv
    rw [length_eq]
    split
    · omega
    · have : v / 128 < Nat.pow 128 (k + 1) := by
        rw [Nat.div_lt_iff_lt_mul (by decide)]
        exact hv
      have := ih (v / 128) this
      omega

/-- A 64-bit word takes at most ten bytes. -/
theorem length_le_ten (v : Nat) (h : v < 18446744073709551616) : length v ≤ 10 :=
  length_le_of_lt 9 v (Nat.lt_of_lt_of_le h (by decide))

end PetFeeder.Varint
