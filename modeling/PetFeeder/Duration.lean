/-!
# Durations

A duration counts whole nanoseconds up to a ceiling, `Duration.maxNanos`: 2^64 - 1 seconds
and 999 999 999 nanoseconds. Sums that would pass the ceiling stop at it, and differences that
would go below zero stop at zero, so every schedule operation stays inside the range.

Main statements: `toNanos_satAdd` and `toNanos_satSub` (the two operations on the count),
`ofParts_secs`/`ofParts_subsecNanos` (seconds and nanoseconds read back).
-/

namespace PetFeeder

/-- The largest duration, in nanoseconds: `2 ^ 64 - 1` seconds and `999 999 999` nanoseconds. -/
def Duration.maxNanos : Nat := 18446744073709551615999999999

/-- A span of time in whole nanoseconds, never above `Duration.maxNanos`. -/
structure Duration where
  /-- The length in nanoseconds. -/
  toNanos : Nat
  le_max : toNanos ≤ Duration.maxNanos := by decide
deriving DecidableEq

namespace Duration

/-- Nanoseconds in a second. -/
def nanosPerSec : Nat := 1000000000

/-- Nanoseconds in a millisecond. -/
def nanosPerMilli : Nat := 1000000

/-- The empty duration. -/
def zero : Duration := ⟨0, by decide⟩

/-- The longest duration. -/
def max : Duration := ⟨maxNanos, Nat.le_refl _⟩

/-- A count of nanoseconds, stopping at the ceiling. -/
def ofNanos (n : Nat) : Duration := ⟨Nat.min n maxNanos, Nat.min_le_right _ _⟩

/-- A count of milliseconds below `2 ^ 64`; larger counts stop at the ceiling. -/
def ofMillis (ms : Nat) : Duration := ofNanos (ms * nanosPerMilli)

/-- Whole seconds and extra nanoseconds; the parts of a value read by `secs` and
`subsecNanos`. -/
def ofParts (secs nanos : Nat) : Duration := ofNanos (secs * nanosPerSec + nanos)

/-- Whole seconds. -/
def secs (d : Duration) : Nat := d.toNanos / nanosPerSec

/-- Nanoseconds past the whole seconds. -/
def subsecNanos (d : Duration) : Nat := d.toNanos % nanosPerSec

/-- Whole milliseconds, rounded down; this can pass `2 ^ 64`. -/
def millis (d : Duration) : Nat := d.toNanos / nanosPerMilli

/-- Whether the duration is empty. -/
def isZero (d : Duration) : Bool := d.toNanos == 0

/-- The sum, stopping at the ceiling. -/
def satAdd (a b : Duration) : Duration := ofNanos (a.toNanos + b.toNanos)

/-- The difference, stopping at zero. -/
def satSub (a b : Duration) : Duration :=
  ⟨a.toNanos - b.toNanos, Nat.le_trans (Nat.sub_le _ _) a.le_max⟩

/-- The product with a count, stopping at the ceiling. -/
def satMul (a : Duration) (n : Nat) : Duration := ofNanos (a.toNanos * n)

instance : LE Duration := ⟨fun a b => a.toNanos ≤ b.toNanos⟩
instance : LT Duration := ⟨fun a b => a.toNanos < b.toNanos⟩

instance (a b : Duration) : Decidable (a ≤ b) := inferInstanceAs (Decidable (a.toNanos ≤ b.toNanos))
instance (a b : Duration) : Decidable (a < b) := inferInstanceAs (Decidable (a.toNanos < b.toNanos))

/-- The shorter of two durations. -/
def min (a b : Duration) : Duration := if a ≤ b then a else b

/-- The longer of two durations. -/
def maxOf (a b : Duration) : Duration := if a ≤ b then b else a

/-! ## Laws -/

@[ext] theorem ext {a b : Duration} (h : a.toNanos = b.toNanos) : a = b := by
  cases a; cases b; simp at h; subst h; rfl

@[simp] theorem toNanos_zero : zero.toNanos = 0 := rfl

@[simp] theorem toNanos_ofNanos (n : Nat) : (ofNanos n).toNanos = Nat.min n maxNanos := rfl

@[simp] theorem toNanos_satAdd (a b : Duration) :
    (a.satAdd b).toNanos = Nat.min (a.toNanos + b.toNanos) maxNanos := rfl

@[simp] theorem toNanos_satSub (a b : Duration) : (a.satSub b).toNanos = a.toNanos - b.toNanos :=
  rfl

theorem le_iff (a b : Duration) : a ≤ b ↔ a.toNanos ≤ b.toNanos := Iff.rfl

theorem lt_iff (a b : Duration) : a < b ↔ a.toNanos < b.toNanos := Iff.rfl

theorem ofParts_secs (secs nanos : Nat) (hs : secs < 18446744073709551616) (hn : nanos < nanosPerSec) :
    (ofParts secs nanos).secs = secs := by
  simp only [ofParts, Duration.secs, toNanos_ofNanos, nanosPerSec, maxNanos, Nat.min_def] at *
  split <;> omega

theorem ofParts_subsecNanos (secs nanos : Nat) (hs : secs < 18446744073709551616) (hn : nanos < nanosPerSec) :
    (ofParts secs nanos).subsecNanos = nanos := by
  simp only [ofParts, Duration.subsecNanos, toNanos_ofNanos, nanosPerSec, maxNanos,
    Nat.min_def] at *
  split <;> omega

end Duration

end PetFeeder
