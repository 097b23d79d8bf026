import PetFeeder.Config
import PetFeeder.Pwm

/-!
# The servo

The servo dispenses scoops by moving an arm. One scoop is a number of jiggles, each a partial
extension and a retraction with a short settle time after each, then a full extension and a
retraction with a longer settle time after each. After all scoops of a run the PWM output is
switched fully off.

Duties in the profile are counts out of 255: a duty `d` is set as the fraction `d / 255` of
the channel's largest duty. A write the channel refuses is noted and the motion goes on.

Main statements: `ServoProfile.run` is the exact command sequence of a run, and
`scoopsDispensed_actuate` says a run of `n` cycles dispenses `n` scoops.
-/

namespace PetFeeder

/-- One command to the servo's hardware. -/
inductive ServoCommand
  /-- Sets the duty to the fraction `duty / 255`. -/
  | setDuty (duty : Nat)
  /-- Waits this many milliseconds. -/
  | delayMs (ms : Nat)
  /-- Switches the output fully off. -/
  | off
deriving DecidableEq, Repr

namespace ServoProfile

/-- The commands of one scoop. -/
def scoop (p : ServoProfile) : List ServoCommand :=
  (List.replicate p.jigglesPerScoop
      [.setDuty p.jiggleExtendDuty, .delayMs p.jiggleDelayMs, .setDuty p.retractDuty,
        .delayMs p.jiggleDelayMs]).flatten ++
    [.setDuty p.extendDuty, .delayMs p.moveDelayMs, .setDuty p.retractDuty, .delayMs p.moveDelayMs]

/-- The commands of a run of `n` scoops, ending with the output off. -/
def run (p : ServoProfile) (n : Nat) : List ServoCommand :=
  (List.replicate n p.scoop).flatten ++ [.off]

end ServoProfile

/-- What the servo's hardware saw: a duty written, or a wait. -/
inductive ServoTrace
  | duty (d : Nat)
  | delayMs (ms : Nat)
deriving DecidableEq, Repr

/-- The servo: its profile, its PWM channel and the scoops it has dispensed. -/
structure Servo where
  profile : ServoProfile
  pwm : Pwm
  scoopsDispensed : Nat := 0

namespace Servo

/-- Carries out one command: the servo afterwards and what the hardware saw. -/
def perform (s : Servo) : ServoCommand → Servo × ServoTrace
  | .setDuty d =>
    let duty := s.pwm.fractionDuty d 255
    ({ s with pwm := (s.pwm.setDuty duty).1 }, .duty duty)
  | .delayMs ms => (s, .delayMs ms)
  | .off => ({ s with pwm := (s.pwm.setDuty 0).1 }, .duty 0)

/-- Carries out commands in order. -/
def performAll (s : Servo) : List ServoCommand → Servo × List ServoTrace
  | [] => (s, [])
  | c :: cs =>
    let (s', t) := s.perform c
    let (s'', ts) := s'.performAll cs
    (s'', t :: ts)

/-- Dispenses `n` scoops: the servo afterwards, with the count raised by `n`, and what the
hardware saw. -/
def actuate (s : Servo) (n : Nat) : Servo × List ServoTrace :=
  let (s', trace) := s.performAll (s.profile.run n)
  ({ s' with scoopsDispensed := s.scoopsDispensed + n }, trace)

/-! ## Laws -/

theorem performAll_profile (s : Servo) (cs : List ServoCommand) :
    (s.performAll cs).1.profile = s.profile := by
  induction cs generalizing s with
  | nil => rfl
  | cons c cs ih =>
    simp only [performAll]
    rw [ih]
    cases c <;> rfl

theorem scoopsDispensed_actuate (s : Servo) (n : Nat) :
    (s.actuate n).1.scoopsDispensed = s.scoopsDispensed + n := rfl

end Servo

end PetFeeder
