import PetFeeder.Duration

/-!
# Countdowns

A countdown runs down from a duration and then counts how far past zero it is. Before it is
due it holds the time remaining; once due it holds nothing remaining and the time overdue.
A countdown started at zero is due at once, overdue by nothing.

`advance` moves it on by a step and tells whether that step made it due: it fires once, on the
step that reaches zero.

Main statements: `advance_fires` and `advance_short` (the two cases before it is due), and
`advance_due` (once due, the overdue time only grows).
-/

namespace PetFeeder

/-- A timer counting down to zero, then counting how long it has been due. -/
structure Countdown where
  /-- Time left before it is due; zero once due. -/
  remaining : Duration
  /-- How long it has been due, or `none` before it is. -/
  overdue : Option Duration
deriving DecidableEq

namespace Countdown

/-- A countdown that is due now. -/
def dueNow : Countdown := ⟨Duration.zero, some Duration.zero⟩

/-- A countdown that is due after `d`; at zero it is due now. -/
def startingAt (d : Duration) : Countdown :=
  if d.isZero then dueNow else ⟨d, none⟩

/-- Whether it has reached zero. -/
def isDue (c : Countdown) : Bool := c.overdue.isSome

/-- Moves the countdown on by `dt`: the countdown after, and whether this step made it due. -/
def advance (c : Countdown) (dt : Duration) : Countdown × Bool :=
  match c.overdue with
  | some late => ({ c with overdue := some (late.satAdd dt) }, false)
  | none =>
    if c.remaining ≤ dt then (⟨Duration.zero, some (dt.satSub c.remaining)⟩, true)
    else ({ c with remaining := c.remaining.satSub dt }, false)

/-! ## Laws -/

@[simp] theorem isDue_dueNow : dueNow.isDue = true := rfl

theorem advance_due (c : Countdown) (late dt : Duration) (h : c.overdue = some late) :
    c.advance dt = ({ c with overdue := some (late.satAdd dt) }, false) := by
  simp [advance, h]

theorem advance_fires (c : Countdown) (dt : Duration) (h : c.overdue = none)
    (hle : c.remaining ≤ dt) :
    c.advance dt = (⟨Duration.zero, some (dt.satSub c.remaining)⟩, true) := by
  simp [advance, h, hle]

theorem advance_short (c : Countdown) (dt : Duration) (h : c.overdue = none)
    (hlt : ¬ c.remaining ≤ dt) :
    c.advance dt = ({ c with remaining := c.remaining.satSub dt }, false) := by
  simp [advance, h, hlt]

end Countdown

end PetFeeder
