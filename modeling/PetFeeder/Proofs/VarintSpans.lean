import PetFeeder.Wire.Reader
import PetFeeder.Wire.Writer
import Mathlib.Tactic.Ring

/-!
# Varints as they stand on the wire

A reader meets bytes, not numbers. This module says which byte strings are varints and what
they stand for, without the reader:

* `Span bs`: every byte of `bs` but the last carries the continuation bit `0x80`;
* `Complete bs`: a span of at most ten bytes, the longest the reader takes;
* `digits bs`: the seven-bit digits, least significant first; `value bs` keeps their low 64
  bits, as a 64-bit word does;
* `Cut bs`: the bytes end inside a varint (all continue, fewer than ten);
* `Overlong bs`: the first ten bytes all continue.

Every byte string starts with exactly one of a complete varint, a cut one or an overlong one
(`split_prefix`). The reader takes a complete varint and answers its value
(`varintFrom_complete`), reports a cut one as truncated (`varintFrom_cut`) and an overlong one
as an overflow (`varintFrom_overlong`). The writer's `encode v` is a complete varint of value
`v` for every 64-bit `v` (`complete_encode`, `value_encode`).
-/

namespace PetFeeder.Varint

/-- `Span bs`: the bytes are one varint as written, every byte but the last carrying the
continuation bit. -/
inductive Span : List UInt8 → Prop
  | last {b : UInt8} (h : b < 0x80) : Span [b]
  | more {b : UInt8} {bs : List UInt8} (h : 0x80 ≤ b) (rest : Span bs) : Span (b :: bs)

/-- A varint the reader takes whole: a span of at most ten bytes. -/
def Complete (bs : List UInt8) : Prop := Span bs ∧ bs.length ≤ 10

/-- The number the seven-bit digits of `bs` spell, least significant first. -/
def digits : List UInt8 → Nat
  | [] => 0
  | b :: bs => b.toNat % 128 + 128 * digits bs

/-- The value a varint stands for on a 64-bit wire: its digits, cut to 64 bits. -/
def value (bs : List UInt8) : Nat := digits bs % 18446744073709551616

/-- Bytes that end inside a varint: all of them continue it, and there are fewer than ten. -/
def Cut (bs : List UInt8) : Prop := (∀ b ∈ bs, 0x80 ≤ b) ∧ bs.length < 10

/-- Bytes whose first ten all continue a varint. -/
def Overlong (bs : List UInt8) : Prop :=
  ∃ pre rest, bs = pre ++ rest ∧ pre.length = 10 ∧ ∀ b ∈ pre, 0x80 ≤ b

theorem toNat_toUInt8 {n : Nat} (h : n < 256) : n.toUInt8.toNat = n := by
  simp [Nat.mod_eq_of_lt h]

theorem not_lt_iff_le (b : UInt8) : ¬ b < 0x80 ↔ 0x80 ≤ b := by
  rw [UInt8.lt_iff_toNat_lt, UInt8.le_iff_toNat_le]
  simp

theorem Span.ne_nil {bs : List UInt8} (h : Span bs) : bs ≠ [] := by
  cases h <;> simp

/-! ## Every byte string starts with one of three things -/

/-- Within a budget of `n` bytes, a string starts with a span, ends while every byte continues,
or continues for all `n` bytes. The induction is on the budget. -/
theorem split_within (n : Nat) (bs : List UInt8) :
    (∃ s rest, Span s ∧ s.length ≤ n ∧ bs = s ++ rest) ∨
      ((∀ b ∈ bs, 0x80 ≤ b) ∧ bs.length < n) ∨
      (∃ pre rest, bs = pre ++ rest ∧ pre.length = n ∧ ∀ b ∈ pre, 0x80 ≤ b) := by
  induction n generalizing bs with
  | zero => exact .inr (.inr ⟨[], bs, rfl, rfl, by simp⟩)
  | succ n ih =>
    cases bs with
    | nil => exact .inr (.inl ⟨by simp, by simp⟩)
    | cons b bs =>
      by_cases hb : b < 0x80
      · exact .inl ⟨[b], bs, .last hb, by simp, rfl⟩
      have hb' : 0x80 ≤ b := (not_lt_iff_le b).1 hb
      -- the first byte continues: what the rest starts with decides
      rcases ih bs with ⟨s, rest, hs, hlen, rfl⟩ | ⟨hall, hlen⟩ | ⟨pre, rest, rfl, hlen, hall⟩
      · exact .inl ⟨b :: s, rest, .more hb' hs, by simp; omega, rfl⟩
      · refine .inr (.inl ⟨?_, by simp; omega⟩)
        intro x hx
        rcases List.mem_cons.1 hx with rfl | hx
        · exact hb'
        · exact hall x hx
      · refine .inr (.inr ⟨b :: pre, rest, rfl, by simp [hlen], ?_⟩)
        intro x hx
        rcases List.mem_cons.1 hx with rfl | hx
        · exact hb'
        · exact hall x hx

/-- **Every byte string starts with a complete, a cut or an overlong varint.** -/
theorem split_prefix (bs : List UInt8) :
    (∃ s rest, Complete s ∧ bs = s ++ rest) ∨ Cut bs ∨ Overlong bs := by
  rcases split_within 10 bs with ⟨s, rest, hs, hlen, rfl⟩ | hcut | hover
  · exact .inl ⟨s, rest, ⟨hs, hlen⟩, rfl⟩
  · exact .inr (.inl hcut)
  · exact .inr (.inr hover)

/-! ## What the reader makes of them -/

section Reader

open Wire

variable {c : UInt8}

theorem continueFrom_stop (h : c < 0x80) (shift acc budget : Nat) (bs : List UInt8) :
    continueFrom c shift acc budget bs = .ok acc bs := by
  cases budget <;> simp [continueFrom, h, pure, EStateM.pure]

theorem continueFrom_zero (h : 0x80 ≤ c) (shift acc : Nat) (bs : List UInt8) :
    continueFrom c shift acc 0 bs = .error .varintOverflow bs := by
  have : ¬ c < 0x80 := (not_lt_iff_le c).2 h
  simp only [continueFrom, this, if_false]
  rfl

theorem continueFrom_next (h : 0x80 ≤ c) (shift acc budget : Nat) (n : UInt8)
    (rest : List UInt8) :
    continueFrom c shift acc (budget + 1) (n :: rest) =
      continueFrom n (shift + 7) (acc + n.toNat % 128 * Nat.pow 2 shift) budget rest := by
  have : ¬ c < 0x80 := (not_lt_iff_le c).2 h
  simp [continueFrom, this, bind, EStateM.bind, byte]

theorem continueFrom_end (h : 0x80 ≤ c) (shift acc budget : Nat) :
    continueFrom c shift acc (budget + 1) [] = .error .truncated [] := by
  have : ¬ c < 0x80 := (not_lt_iff_le c).2 h
  simp [continueFrom, this, bind, EStateM.bind, byte]

/-- Past the byte `c`, the reader takes the rest of a span and adds its digits above `shift`. -/
theorem continueFrom_span {t : List UInt8} (h : Span (c :: t)) (shift acc budget : Nat)
    (hb : t.length ≤ budget) (rest : List UInt8) :
    continueFrom c shift acc budget (t ++ rest) = .ok (acc + Nat.pow 2 shift * digits t) rest := by
  induction t generalizing c shift acc budget with
  | nil =>
    cases h with
    | last hc => simp [continueFrom_stop hc, digits]
    | more _ hs => cases hs
  | cons n t ih =>
    cases h with
    | more hc hs =>
      obtain ⟨budget, rfl⟩ : ∃ k, budget = k + 1 := ⟨budget - 1, by simp at hb; omega⟩
      rw [List.cons_append, continueFrom_next hc, ih hs _ _ _ (by simp at hb; omega)]
      congr 1
      simp only [digits, Nat.pow_succ, Nat.pow_eq]
      ring

theorem continueFrom_cut {t : List UInt8} (hc : 0x80 ≤ c) (ht : ∀ b ∈ t, 0x80 ≤ b)
    (shift acc budget : Nat) (hb : t.length < budget) :
    continueFrom c shift acc budget t = .error .truncated [] := by
  induction t generalizing c shift acc budget with
  | nil =>
    obtain ⟨budget, rfl⟩ : ∃ k, budget = k + 1 := ⟨budget - 1, by simp at hb; omega⟩
    exact continueFrom_end hc shift acc budget
  | cons n t ih =>
    obtain ⟨budget, rfl⟩ : ∃ k, budget = k + 1 := ⟨budget - 1, by simp at hb; omega⟩
    rw [continueFrom_next hc]
    exact ih (ht n (by simp)) (fun b hb => ht b (by simp [hb])) _ _ _ (by simp at hb; omega)

theorem continueFrom_overlong {t : List UInt8} (hc : 0x80 ≤ c) (ht : ∀ b ∈ t, 0x80 ≤ b)
    (shift acc : Nat) (rest : List UInt8) :
    continueFrom c shift acc t.length (t ++ rest) = .error .varintOverflow rest := by
  induction t generalizing c shift acc with
  | nil => exact continueFrom_zero hc shift acc rest
  | cons n t ih =>
    rw [List.length_cons, List.cons_append, continueFrom_next hc]
    exact ih (ht n (by simp)) (fun b hb => ht b (by simp [hb])) _ _

/-- **A whole varint.** The reader takes exactly its bytes and answers its value. -/
theorem varintFrom_complete {t : List UInt8} (h : Complete (c :: t)) (rest : List UInt8) :
    varintFrom c (t ++ rest) = .ok (value (c :: t)) rest := by
  have hspan := continueFrom_span h.1 7 (c.toNat % 128) 9
    (by have := h.2; simp at this; omega) rest
  simp only [varintFrom, bind, EStateM.bind, hspan, pure, EStateM.pure, value, digits]

/-- **A cut varint.** Input that ends inside a varint is truncated. -/
theorem varintFrom_cut {t : List UInt8} (h : Cut (c :: t)) :
    varintFrom c t = .error .truncated [] := by
  have hcut := continueFrom_cut (h.1 c (by simp)) (fun b hb => h.1 b (List.mem_cons_of_mem c hb))
    7 (c.toNat % 128) 9 (by have := h.2; simp at this; omega)
  simp only [varintFrom, bind, EStateM.bind, hcut]

/-- **An overlong varint.** Ten bytes that all continue are an overflow. -/
theorem varintFrom_overlong {t : List UInt8} (h : Overlong (c :: t)) :
    ∃ rest, varintFrom c t = .error .varintOverflow rest := by
  obtain ⟨pre, rest, heq, hlen, hall⟩ := h
  cases pre with
  | nil => simp at hlen
  | cons c' pre =>
    simp only [List.cons_append, List.cons.injEq] at heq
    obtain ⟨rfl, rfl⟩ := heq
    have hover := continueFrom_overlong (hall c (by simp))
      (fun b hb => hall b (List.mem_cons_of_mem c hb)) 7 (c.toNat % 128) rest
    simp only [List.length_cons] at hlen
    rw [show pre.length = 9 by omega] at hover
    exact ⟨rest, by simp only [varintFrom, bind, EStateM.bind, hover]⟩

theorem readVarint_cons (b : UInt8) (bs : List UInt8) : readVarint (b :: bs) = varintFrom b bs := by
  simp only [readVarint, bind, EStateM.bind, byte]

theorem readVarint_complete {s : List UInt8} (h : Complete s) (rest : List UInt8) :
    readVarint (s ++ rest) = .ok (value s) rest := by
  obtain ⟨c, t, rfl⟩ := List.exists_cons_of_ne_nil h.1.ne_nil
  rw [List.cons_append, readVarint_cons, varintFrom_complete h]

theorem readVarint_cut {bs : List UInt8} (h : Cut bs) : readVarint bs = .error .truncated [] := by
  cases bs with
  | nil => rfl
  | cons c t => rw [readVarint_cons, varintFrom_cut h]

theorem readVarint_overlong {bs : List UInt8} (h : Overlong bs) :
    ∃ rest, readVarint bs = .error .varintOverflow rest := by
  cases bs with
  | nil =>
    obtain ⟨pre, r, hnil, hlen, -⟩ := h
    simp only [List.nil_eq, List.append_eq_nil_iff] at hnil
    rw [hnil.1] at hlen
    simp at hlen
  | cons c t =>
    rw [readVarint_cons]
    exact varintFrom_overlong h

end Reader

/-! ## What the writer emits -/

theorem span_encode (v : Nat) : Span (encode v) := by
  induction v using Nat.strongRecOn with
  | ind v ih =>
    rw [encode_eq]
    split
    · next hv =>
      refine .last ?_
      rw [UInt8.lt_iff_toNat_lt, toNat_toUInt8 (by omega)]
      exact hv
    · next hv =>
      refine .more ?_ (ih (v / 128) (by omega))
      rw [UInt8.le_iff_toNat_le, toNat_toUInt8 (by omega)]
      simp

theorem digits_encode (v : Nat) : digits (encode v) = v := by
  induction v using Nat.strongRecOn with
  | ind v ih =>
    rw [encode_eq]
    split
    · next hv => simp [digits, toNat_toUInt8 (show v < 256 by omega), Nat.mod_eq_of_lt hv]
    · next hv =>
      simp only [digits, ih (v / 128) (by omega), toNat_toUInt8 (show v % 128 + 128 < 256 by omega)]
      omega

theorem complete_encode {v : Nat} (hv : v < 18446744073709551616) : Complete (encode v) :=
  ⟨span_encode v, by rw [length_encode]; exact length_le_ten v hv⟩

theorem value_encode {v : Nat} (hv : v < 18446744073709551616) : value (encode v) = v := by
  rw [value, digits_encode, Nat.mod_eq_of_lt hv]

end PetFeeder.Varint
