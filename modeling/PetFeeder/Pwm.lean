/-!
# PWM channels

A PWM channel holds a duty between zero and its largest duty. The feeder sets duties as
fractions: `num / denom` of the largest duty, rounded down. The channel answers each write on
its own: it may take or refuse any of them, and a refused write leaves the duty it had, though
the write was attempted. The answers are a table indexed by the number of the write.
-/

namespace PetFeeder

/-- A PWM channel. -/
structure Pwm where
  /-- The duty at which the output is fully on. -/
  maxDuty : Nat
  /-- Whether the channel takes its `k`-th write, counting from zero. -/
  takes : Nat → Bool := fun _ => true
  /-- How many writes have been attempted. -/
  writes : Nat := 0
  /-- The duty the channel holds. -/
  duty : Nat := 0

namespace Pwm

/-- The duty for the fraction `num / denom` of the largest duty, rounded down. -/
def fractionDuty (p : Pwm) (num denom : Nat) : Nat := num * p.maxDuty / denom

/-- Writes a duty: the channel afterwards, and whether the write took. -/
def setDuty (p : Pwm) (d : Nat) : Pwm × Bool :=
  let took := p.takes p.writes
  ({ p with writes := p.writes + 1, duty := if took then d else p.duty }, took)

/-- A write, taken or refused, leaves the channel's largest duty alone. -/
@[simp] theorem setDuty_maxDuty (p : Pwm) (d : Nat) : (p.setDuty d).1.maxDuty = p.maxDuty := rfl

/-- A fraction of at most one never asks for more than the largest duty. -/
theorem fractionDuty_le (p : Pwm) (num denom : Nat) (h : num ≤ denom) :
    p.fractionDuty num denom ≤ p.maxDuty :=
  Nat.div_le_of_le_mul (Nat.mul_le_mul_right _ h)

end Pwm

end PetFeeder
