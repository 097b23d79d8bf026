import PetFeeder.Http.Response
import Mathlib.Data.List.Infix

/-!
# Where the line-end counter fires

The response parser finds line ends with a counter rather than by matching: a carriage return at
an even count or a line feed at an odd count adds one, any other byte resets it to zero
(`ResponseParser.nextLineEnd`). This module says, without the counter, where it first reaches
two and four.

A carriage return that arrives at an odd count resets the counter instead of starting a new
line end, so a CR LF counts only when its CR follows an even number of carriage returns in a
row (none included):

* `EndsLine bs`: `bs` ends with such a CR LF;
* `EndsHeaders bs`: `bs` ends with CR LF CR LF whose first CR is such a one;
* `lineEndCount_below_two_iff`, `lineEndCount_below_four_iff`: the counter stays below two (four)
  over every prefix exactly when no prefix ends a line (the header block).

The counter's value is always the length of an alternating CR LF CR … run it has just seen,
preceded by a zero count (`lineEndCount_eq_iff`), and its parity is that of the carriage returns
the bytes end with (`lineEndCount_mod_two`).
-/

namespace PetFeeder.Http

open ResponseParser

/-- The line-end counter after the bytes `bs`, from zero. -/
def lineEndCount (bs : List UInt8) : Nat := bs.foldl nextLineEnd 0

/-- How many carriage returns `bs` ends with. -/
def trailingCRs (bs : List UInt8) : Nat := (bs.reverse.takeWhile (· == 13)).length

/-- The first `m` bytes of CR LF CR LF …. -/
def crlfRun (m : Nat) : List UInt8 := (List.range m).map fun i => if i % 2 = 0 then 13 else 10

/-- `bs` ends a line: it ends with CR LF, and the CR follows an even number of carriage returns
in a row. -/
def EndsLine (bs : List UInt8) : Prop := ∃ q, bs = q ++ [13, 10] ∧ trailingCRs q % 2 = 0

/-- `bs` ends the header block: it ends with CR LF CR LF, and the first CR follows an even
number of carriage returns in a row. -/
def EndsHeaders (bs : List UInt8) : Prop := ∃ q, bs = q ++ [13, 10, 13, 10] ∧ trailingCRs q % 2 = 0

/-! ## One byte at a time -/

@[simp] theorem lineEndCount_nil : lineEndCount [] = 0 := rfl

theorem lineEndCount_snoc (bs : List UInt8) (b : UInt8) :
    lineEndCount (bs ++ [b]) = nextLineEnd (lineEndCount bs) b := by
  simp [lineEndCount, List.foldl_append]

theorem trailingCRs_snoc (bs : List UInt8) (b : UInt8) :
    trailingCRs (bs ++ [b]) = if b = 13 then trailingCRs bs + 1 else 0 := by
  by_cases h : b = 13 <;> simp [trailingCRs, h]

/-- The counter either counts the byte or starts over. -/
theorem nextLineEnd_cases (c : Nat) (b : UInt8) :
    (nextLineEnd c b = c + 1 ∧ (b = 13 ∧ c % 2 = 0 ∨ b = 10 ∧ c % 2 = 1)) ∨ nextLineEnd c b = 0 := by
  unfold nextLineEnd
  split
  · next h => exact .inl ⟨rfl, .inl h⟩
  · split
    · next h => exact .inl ⟨rfl, .inr h⟩
    · exact .inr rfl

theorem lineEndCount_snoc_le (bs : List UInt8) (b : UInt8) :
    lineEndCount (bs ++ [b]) ≤ lineEndCount bs + 1 := by
  rw [lineEndCount_snoc]
  rcases nextLineEnd_cases (lineEndCount bs) b with ⟨h, -⟩ | h <;> omega

/-- After any byte but a carriage return the count is even, and each carriage return flips it. -/
theorem lineEndCount_mod_two (bs : List UInt8) : lineEndCount bs % 2 = trailingCRs bs % 2 := by
  induction bs using List.reverseRecOn with
  | nil => rfl
  | append_singleton bs b ih =>
    rw [lineEndCount_snoc, trailingCRs_snoc]
    rcases nextLineEnd_cases (lineEndCount bs) b with ⟨h, (⟨rfl, hc⟩ | ⟨rfl, hc⟩)⟩ | h
    · simp only [h, if_true]
      omega
    · rw [h, if_neg (by decide)]
      omega
    · rw [h]
      split
      · next hb =>
        -- a carriage return starts over only at an odd count
        have : lineEndCount bs % 2 = 1 := by
          by_contra hc
          subst hb
          simp [nextLineEnd, show lineEndCount bs % 2 = 0 by omega] at h
        omega
      · rfl

theorem crlfRun_succ (m : Nat) :
    crlfRun (m + 1) = crlfRun m ++ [if m % 2 = 0 then 13 else 10] := by
  simp [crlfRun, List.range_succ]

/-- **What the counter has seen.** It stands at `m` exactly when the bytes end with the first
`m` bytes of CR LF CR LF …, counted from a zero count. -/
theorem lineEndCount_eq_iff (m : Nat) (u : List UInt8) :
    lineEndCount u = m ↔ ∃ q, u = q ++ crlfRun m ∧ lineEndCount q = 0 := by
  induction m generalizing u with
  | zero => exact ⟨fun h => ⟨u, by simp [crlfRun], h⟩, fun ⟨q, hu, hq⟩ => by simpa [crlfRun, hu] using hq⟩
  | succ m ih =>
    constructor
    · intro h
      -- a positive count was reached by counting the last byte
      rcases List.eq_nil_or_concat u with rfl | ⟨u, b, rfl⟩
      · simp at h
      rw [List.concat_eq_append, lineEndCount_snoc] at h
      rcases nextLineEnd_cases (lineEndCount u) b with ⟨hc, hb⟩ | hc
      · obtain ⟨q, rfl, hq⟩ := (ih u).1 (by omega)
        refine ⟨q, ?_, hq⟩
        have hm : lineEndCount (q ++ crlfRun m) = m := (ih _).2 ⟨q, rfl, hq⟩
        rw [crlfRun_succ, ← List.append_assoc]
        rcases hb with ⟨rfl, h2⟩ | ⟨rfl, h2⟩ <;> simp [hm] at h2 <;> simp [h2]
      · omega
    · rintro ⟨q, rfl, hq⟩
      have hm : lineEndCount (q ++ crlfRun m) = m := (ih _).2 ⟨q, rfl, hq⟩
      rw [crlfRun_succ, ← List.append_assoc, lineEndCount_snoc, hm]
      by_cases h2 : m % 2 = 0
      · simp [nextLineEnd, h2]
      · simp [nextLineEnd, show m % 2 = 1 by omega]

theorem crlfRun_two : crlfRun 2 = [13, 10] := rfl

theorem crlfRun_four : crlfRun 4 = [13, 10, 13, 10] := rfl

/-! ## Where the counter first reaches two and four -/

/-- Reaching `n` for the first time, the counter has just counted the first `n` bytes of
CR LF CR LF … from a zero count: a shorter prefix would otherwise have reached it. -/
theorem lineEndCount_first_reach {n : Nat} (hn : 0 < n) {u : List UInt8}
    (h : ∀ v, v <+: u → v ≠ u → lineEndCount v < n) (hu : n ≤ lineEndCount u) :
    ∃ q, u = q ++ crlfRun n ∧ lineEndCount q = 0 := by
  rcases List.eq_nil_or_concat u with rfl | ⟨u, b, rfl⟩
  · simp at hu
    omega
  rw [List.concat_eq_append] at h hu ⊢
  have hu' := h u (List.prefix_append _ _) (by simp)
  have := lineEndCount_snoc_le u b
  exact (lineEndCount_eq_iff n _).1 (by omega)

/-- With every shorter prefix below two, the counter reaches two exactly at a line end. -/
theorem two_le_lineEndCount_iff {u : List UInt8}
    (h : ∀ v, v <+: u → v ≠ u → lineEndCount v < 2) : 2 ≤ lineEndCount u ↔ EndsLine u := by
  constructor
  · intro hu
    obtain ⟨q, hq, h0⟩ := lineEndCount_first_reach (by decide) h hu
    refine ⟨q, by rw [hq, crlfRun_two], ?_⟩
    have := lineEndCount_mod_two q
    omega
  · rintro ⟨q, rfl, hq⟩
    have hq2 : lineEndCount q < 2 := h q (List.prefix_append _ _) (by simp)
    have h0 : lineEndCount q = 0 := by
      have := lineEndCount_mod_two q
      omega
    have := (lineEndCount_eq_iff 2 (q ++ [13, 10])).2 ⟨q, by rw [crlfRun_two], h0⟩
    omega

/-- With every shorter prefix below four, the counter reaches four exactly at the end of the
header block. -/
theorem four_le_lineEndCount_iff {u : List UInt8}
    (h : ∀ v, v <+: u → v ≠ u → lineEndCount v < 4) : 4 ≤ lineEndCount u ↔ EndsHeaders u := by
  constructor
  · intro hu
    obtain ⟨q, hq, h0⟩ := lineEndCount_first_reach (by decide) h hu
    refine ⟨q, by rw [hq, crlfRun_four], ?_⟩
    have := lineEndCount_mod_two q
    omega
  · rintro ⟨q, rfl, hq⟩
    have hq4 : lineEndCount q < 4 := h q (List.prefix_append _ _) (by simp)
    -- an even count below four is zero or two, and at two the first CR LF would reach four
    have h2 : lineEndCount q ≠ 2 := by
      intro h2
      obtain ⟨q', rfl, h0⟩ := (lineEndCount_eq_iff 2 q).1 h2
      have h4 := (lineEndCount_eq_iff 4 (q' ++ [13, 10, 13, 10])).2 ⟨q', by rw [crlfRun_four], h0⟩
      have hlt := h (q' ++ [13, 10, 13, 10]) ⟨[13, 10], by simp [crlfRun_two]⟩
        (fun he => by simpa [crlfRun_two] using congrArg List.length he)
      omega
    have h0 : lineEndCount q = 0 := by
      have := lineEndCount_mod_two q
      omega
    have := (lineEndCount_eq_iff 4 (q ++ [13, 10, 13, 10])).2 ⟨q, by rw [crlfRun_four], h0⟩
    omega

/-- The counter stays below `n` over all prefixes exactly when no prefix is one where it first
reaches `n`. The induction is on the bytes from the end; a prefix of `u ++ [b]` is `u ++ [b]`
itself or a prefix of `u`. -/
theorem lineEndCount_below_iff {n : Nat} {E : List UInt8 → Prop}
    (hE : ∀ u, (∀ v, v <+: u → v ≠ u → lineEndCount v < n) → (n ≤ lineEndCount u ↔ E u))
    (u : List UInt8) : (∀ v, v <+: u → lineEndCount v < n) ↔ ∀ v, v <+: u → ¬ E v := by
  induction u using List.reverseRecOn with
  | nil =>
    simp only [List.prefix_nil, forall_eq]
    exact ⟨fun h he => absurd ((hE [] (by simp)).2 he) (by omega),
      fun h => by by_contra hc; exact h ((hE [] (by simp)).1 (by omega))⟩
  | append_singleton u b ih =>
    have proper : (∀ v, v <+: u → lineEndCount v < n) →
        ∀ v, v <+: u ++ [b] → v ≠ u ++ [b] → lineEndCount v < n :=
      fun hall v hv hne => hall v ((List.prefix_concat_iff.1 hv).resolve_left hne)
    simp only [List.prefix_concat_iff, or_imp, forall_and, forall_eq]
    constructor
    · rintro ⟨hlast, hall⟩
      exact ⟨fun he => absurd ((hE _ (proper hall)).2 he) (by omega), ih.1 hall⟩
    · rintro ⟨hlast, hall⟩
      have hall' := ih.2 hall
      refine ⟨?_, hall'⟩
      by_contra hc
      exact hlast ((hE _ (proper hall')).1 (by omega))

theorem lineEndCount_below_two_iff (u : List UInt8) :
    (∀ v, v <+: u → lineEndCount v < 2) ↔ ∀ v, v <+: u → ¬ EndsLine v :=
  lineEndCount_below_iff (fun _ h => two_le_lineEndCount_iff h) u

theorem lineEndCount_below_four_iff (u : List UInt8) :
    (∀ v, v <+: u → lineEndCount v < 4) ↔ ∀ v, v <+: u → ¬ EndsHeaders v :=
  lineEndCount_below_iff (fun _ h => four_le_lineEndCount_iff h) u

end PetFeeder.Http
