import Mathlib
import PetFeeder.Proofs.VarintSpans

/-!
# What reading a varint does to any byte string

`Varint.varintFrom_complete`, `varintFrom_cut` and `varintFrom_overlong` say what the reader
makes of a varint of each shape. Here the shapes are read off the bytes themselves: the reader
stops at the first byte whose high bit is clear (`Varint.stopIndex`), if that byte comes within
ten, and adds the low seven bits of each byte taken at its place, `2 ^ (7 * j)` for the `j`-th,
cut to 64 bits. Ten bytes that all carry the high bit are an overflow, and bytes that end before
either are truncated.

Main statement: `readVarint_takes_through_first_stop`.
-/

namespace PetFeeder.Varint

open Wire

/-- Where the first byte of `s` without the continuation bit stands, or `s.length` if every
byte carries it. -/
def stopIndex (s : List UInt8) : Nat := s.findIdx (fun b => b &&& 0x80 == 0)

theorem highBit_clear_iff (b : UInt8) : b &&& 0x80 = 0 ↔ b < 0x80 := by
  have hbyte : ∀ x : Fin 256, x.val &&& 128 = 0 ↔ x.val < 128 := by decide +kernel
  rw [← UInt8.toNat_inj, UInt8.toNat_and, UInt8.lt_iff_toNat_lt]
  exact hbyte ⟨b.toNat, b.toNat_lt⟩

theorem lowBits_toNat (b : UInt8) : (b &&& 0x7F).toNat = b.toNat % 128 := by
  rw [UInt8.toNat_and]
  exact Nat.and_two_pow_sub_one_eq_mod b.toNat 7

theorem stopIndex_cons (b : UInt8) (t : List UInt8) :
    stopIndex (b :: t) = if b < 0x80 then 0 else stopIndex t + 1 := by
  have hclear : (b &&& 0x80 == 0) = decide (b < 0x80) := by
    rw [Bool.eq_iff_iff, beq_iff_eq, decide_eq_true_iff, highBit_clear_iff]
  simp only [stopIndex, List.findIdx_cons, hclear, Bool.cond_decide]

theorem stopIndex_le_length (s : List UInt8) : stopIndex s ≤ s.length :=
  List.findIdx_le_length

/-- The bytes up to and including the first stop are one varint as written. -/
theorem span_take_stopIndex {s : List UInt8} (h : stopIndex s < s.length) :
    Span (s.take (stopIndex s + 1)) := by
  induction s with
  | nil => simp at h
  | cons b t ih =>
    rw [stopIndex_cons] at h ⊢
    split
    · next hb => exact .last hb
    · next hb =>
      rw [if_neg hb] at h
      rw [List.take_succ_cons]
      exact .more ((not_lt_iff_le b).1 hb) (ih (by simp at h; omega))

/-- Every byte before the first stop continues the varint. -/
theorem continues_take_stopIndex (s : List UInt8) : ∀ b ∈ s.take (stopIndex s), 0x80 ≤ b := by
  induction s with
  | nil => simp
  | cons b t ih =>
    rw [stopIndex_cons]
    split
    · simp
    · next hb =>
      intro x hx
      rw [List.take_succ_cons, List.mem_cons] at hx
      rcases hx with rfl | hx
      · exact (not_lt_iff_le x).1 hb
      · exact ih x hx

/-- The digits of the first `k` bytes, as a sum over their places. -/
theorem digits_take (s : List UInt8) (k : Nat) :
    digits (s.take k) = ∑ j ∈ Finset.range k, (s.getD j 0 &&& 0x7F).toNat * 2 ^ (7 * j) := by
  induction s generalizing k with
  | nil => simp [digits]
  | cons b t ih =>
    cases k with
    | zero => simp [digits]
    | succ k =>
      rw [List.take_succ_cons, digits, ih k, Finset.sum_range_succ', Finset.mul_sum]
      simp only [List.getD_cons_succ, List.getD_cons_zero, lowBits_toNat, Nat.mul_zero,
        Nat.pow_zero, Nat.mul_one]
      rw [Nat.add_comm]
      congr 1
      refine Finset.sum_congr rfl fun j _ => ?_
      rw [Nat.mul_succ, Nat.pow_add]
      ring

/-- Ten bytes that all continue: the reader stops on the tenth, leaving what follows it. -/
theorem readVarint_overlong_drop {s : List UInt8} (hlen : 10 ≤ s.length)
    (h : ∀ b ∈ s.take 10, 0x80 ≤ b) : readVarint s = .error .varintOverflow (s.drop 10) := by
  have hne : s ≠ [] := by
    rintro rfl
    simp at hlen
  obtain ⟨c, t, rfl⟩ := List.exists_cons_of_ne_nil hne
  have hc : 0x80 ≤ c := h c (by simp)
  have ht : ∀ b ∈ t.take 9, 0x80 ≤ b := fun b hb => h b (by simp [List.take_succ_cons, hb])
  have hnine : (t.take 9).length = 9 := by simp at hlen ⊢; omega
  have hover := continueFrom_overlong hc ht 7 (c.toNat % 128) (t.drop 9)
  rw [hnine, List.take_append_drop] at hover
  simp only [readVarint_cons, varintFrom, bind, EStateM.bind, hover, List.drop_succ_cons]

/-- **Reading a varint from any bytes.** Let `i` be where the first byte with a clear high bit
stands. If it stands among the first ten bytes, the reader takes the bytes through it and
answers the sum of their low seven bits, each at its place, cut to 64 bits. If the first ten
bytes all carry the high bit, it reports an overflow after taking those ten. Otherwise the bytes
end first, and it reports them truncated, having taken them all. In particular it reads back the
varint of every 64-bit word, whatever follows it. -/
theorem readVarint_takes_through_first_stop (s : List UInt8) :
    readVarint s =
        (if stopIndex s < s.length ∧ stopIndex s < 10 then
          .ok ((∑ j ∈ Finset.range (stopIndex s + 1),
              (s.getD j 0 &&& 0x7F).toNat * 2 ^ (7 * j)) % 18446744073709551616)
            (s.drop (stopIndex s + 1))
        else if 10 ≤ stopIndex s then .error .varintOverflow (s.drop 10)
        else .error .truncated []) ∧
      ∀ (v : UInt64) (r : List UInt8), readVarint (encode v.toNat ++ r) = .ok v.toNat r := by
  refine ⟨?_, fun v r => ?_⟩
  · have hle := stopIndex_le_length s
    by_cases hstop : stopIndex s < s.length ∧ stopIndex s < 10
    · -- a whole varint of at most ten bytes, then the rest
      rw [if_pos hstop]
      have hc : Complete (s.take (stopIndex s + 1)) :=
        ⟨span_take_stopIndex hstop.1, by simp; omega⟩
      have hread := readVarint_complete hc (s.drop (stopIndex s + 1))
      rw [List.take_append_drop] at hread
      rw [hread, value, digits_take]
    · rw [if_neg hstop]
      by_cases hten : 10 ≤ stopIndex s
      · -- the first ten bytes come before any stop
        rw [if_pos hten]
        refine readVarint_overlong_drop (by omega) fun b hb => ?_
        have hsub : s.take 10 = (s.take (stopIndex s)).take 10 := by
          rw [List.take_take, Nat.min_eq_left hten]
        rw [hsub] at hb
        exact continues_take_stopIndex s b (List.mem_of_mem_take hb)
      · -- no stop at all, and fewer than ten bytes
        rw [if_neg hten]
        have hall : stopIndex s = s.length := by omega
        refine readVarint_cut ⟨fun b hb => ?_, by omega⟩
        have := continues_take_stopIndex s b
        rw [hall, List.take_length] at this
        exact this hb
  · have hv := v.toNat_lt
    rw [readVarint_complete (complete_encode hv), value_encode hv]

/-- The two bytes of 300, then one more. -/
example : readVarint [0xAC, 0x02, 0x07] = .ok 300 [0x07] := rfl

end PetFeeder.Varint
