import PetFeeder.Ports
import PetFeeder.Pwm

/-!
# The status light

An RGB light shows the phase of the feeder: amber while connecting, cyan while sending, blue
while waiting for the answer, violet while parsing it, green on success, red on failure and
white while feeding. Each channel's duty is the colour's component as the fraction
`component / 255` of the channel's largest duty. The light starts off.
-/

namespace PetFeeder

/-- A colour as red, green and blue components out of 255. -/
structure Colour where
  red : Nat
  green : Nat
  blue : Nat
deriving DecidableEq, Repr

/-- The colour each phase is shown in. -/
def Phase.colour : Phase → Colour
  | .connecting => ⟨255, 160, 0⟩
  | .sending => ⟨0, 200, 255⟩
  | .awaiting => ⟨0, 0, 255⟩
  | .parsing => ⟨180, 0, 255⟩
  | .success => ⟨0, 255, 0⟩
  | .failure => ⟨255, 0, 0⟩
  | .feeding => ⟨255, 255, 255⟩

/-- The light: its three channels and the colour last set. -/
structure StatusLed where
  red : Pwm
  green : Pwm
  blue : Pwm
  current : Colour

namespace StatusLed

/-- Sets a colour: every channel is written, and the duties attempted are reported in the
order red, green, blue. A channel that refuses keeps its duty; the colour is noted anyway. -/
def setColour (l : StatusLed) (c : Colour) : StatusLed × List Nat :=
  let r := l.red.fractionDuty c.red 255
  let g := l.green.fractionDuty c.green 255
  let b := l.blue.fractionDuty c.blue 255
  ({ red := (l.red.setDuty r).1, green := (l.green.setDuty g).1, blue := (l.blue.setDuty b).1,
     current := c }, [r, g, b])

/-- Switches the light off. -/
def off (l : StatusLed) : StatusLed × List Nat := l.setColour ⟨0, 0, 0⟩

/-- Shows a phase. -/
def signal (l : StatusLed) (p : Phase) : StatusLed × List Nat := l.setColour p.colour

/-- A light over three channels; it is switched off at once. -/
def new (red green blue : Pwm) : StatusLed × List Nat :=
  off { red, green, blue, current := ⟨0, 0, 0⟩ }

end StatusLed

end PetFeeder
