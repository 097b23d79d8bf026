import PetFeeder.Servo

/-!
# What the servo's hardware sees

A run of the servo is a list of commands (`ServoProfile.run`), and the hardware sees each as a
duty written or a wait. Read that way, a run of `n` scoops is a sequence of strokes, each a duty
followed by its settle time, then one write that switches the output off.

* `Servo.perform_maxDuty`: a command, its duty write taken or refused, leaves the channel's
  largest duty alone;
* `Servo.performAll_seen`: each command is seen as `ServoCommand.seenAt` that largest duty,
  whichever writes the channel takes or refuses;
* `ServoProfile.dutyPlan`, `ServoProfile.delayPlan`: the duties and the settle times of a run,
  as the profile lists them: per scoop, the jiggle extension and the retraction once per jiggle,
  then the full extension and the retraction.

Main statement: `actuate_strokes_then_off`.
-/

namespace PetFeeder

namespace ServoCommand

/-- What the hardware sees of a command on a channel whose largest duty is `maxDuty`. -/
def seenAt (maxDuty : Nat) : ServoCommand → ServoTrace
  | .setDuty d => .duty (d * maxDuty / 255)
  | .delayMs ms => .delayMs ms
  | .off => .duty 0

end ServoCommand

namespace Servo

theorem perform_maxDuty (s : Servo) (c : ServoCommand) :
    (s.perform c).1.pwm.maxDuty = s.pwm.maxDuty := by
  cases c <;> simp [perform]

theorem perform_seen (s : Servo) (c : ServoCommand) :
    (s.perform c).2 = c.seenAt s.pwm.maxDuty := by
  cases c <;> rfl

/-- **What a run of commands shows.** The induction is on the commands; the largest duty, which
fixes what each duty write shows, survives every step. -/
theorem performAll_seen (s : Servo) (cs : List ServoCommand) :
    (s.performAll cs).2 = cs.map (ServoCommand.seenAt s.pwm.maxDuty) := by
  induction cs generalizing s with
  | nil => rfl
  | cons c cs ih =>
    simp only [performAll, List.map_cons]
    rw [ih, perform_maxDuty, perform_seen]

end Servo

namespace ServoProfile

/-- The duties of one scoop, out of 255, in the order they are set: the jiggle extension and
the retraction once per jiggle, then the full extension and the retraction. -/
def scoopDuties (p : ServoProfile) : List Nat :=
  (List.replicate p.jigglesPerScoop [p.jiggleExtendDuty, p.retractDuty]).flatten ++
    [p.extendDuty, p.retractDuty]

/-- The settle times of one scoop, in milliseconds, in the order they are waited. -/
def scoopDelays (p : ServoProfile) : List Nat :=
  (List.replicate p.jigglesPerScoop [p.jiggleDelayMs, p.jiggleDelayMs]).flatten ++
    [p.moveDelayMs, p.moveDelayMs]

/-- The duties of a run of `n` scoops. -/
def dutyPlan (p : ServoProfile) (n : Nat) : List Nat := (List.replicate n p.scoopDuties).flatten

/-- The settle times of a run of `n` scoops. -/
def delayPlan (p : ServoProfile) (n : Nat) : List Nat := (List.replicate n p.scoopDelays).flatten

theorem length_scoopDuties (p : ServoProfile) : p.scoopDuties.length = p.scoopDelays.length := by
  simp [scoopDuties, scoopDelays]

end ServoProfile

/-- Pairing two runs of equal blocks pairs them block by block. -/
theorem zipWith_flatten_replicate {α β γ : Type} (f : α → β → γ) {a : List α} {b : List β}
    (h : a.length = b.length) (n : Nat) :
    List.zipWith f (List.replicate n a).flatten (List.replicate n b).flatten =
      (List.replicate n (List.zipWith f a b)).flatten := by
  induction n with
  | zero => rfl
  | succ n ih =>
    simp only [List.replicate_succ, List.flatten_cons]
    rw [List.zipWith_append h, ih]

/-- Pairing two runs of two-element blocks pairs them element by element. -/
theorem zipWith_flatten_replicate_pair {α β γ : Type} (f : α → β → γ) (a b : α) (c d : β)
    (n : Nat) :
    List.zipWith f (List.replicate n [a, b]).flatten (List.replicate n [c, d]).flatten =
      (List.replicate n [f a c, f b d]).flatten :=
  zipWith_flatten_replicate f rfl n

namespace Servo

/-- What the hardware sees of a duty `d` and the settle time `ms` after it. -/
def stroke (s : Servo) (d ms : Nat) : List ServoTrace :=
  [.duty (s.pwm.fractionDuty d 255), .delayMs ms]

theorem length_jiggles {α : Type} (a b : α) (k : Nat) :
    (List.replicate k [a, b]).flatten.length = 2 * k := by
  simp [List.length_flatten, Nat.mul_comm]

/-- One scoop, stroke by stroke, is what its commands show. -/
theorem strokes_scoop (s : Servo) :
    (List.zipWith s.stroke s.profile.scoopDuties s.profile.scoopDelays).flatten =
      s.profile.scoop.map (ServoCommand.seenAt s.pwm.maxDuty) := by
  rw [ServoProfile.scoopDuties, ServoProfile.scoopDelays,
    List.zipWith_append (by rw [length_jiggles, length_jiggles]), zipWith_flatten_replicate_pair]
  simp [ServoProfile.scoop, List.map_flatten, List.flatten_flatten, stroke, ServoCommand.seenAt,
    Pwm.fractionDuty]

end Servo

/-- **A run of the servo, as its hardware sees it.** Whatever the channel answers to each
write, `actuate n` shows the duties of `dutyPlan n`, each set as a fraction of 255 and followed
by its settle time from `delayPlan n`, then one write of duty zero that switches the output off;
the two plans have the same length, and the scoop count goes up by `n`. -/
theorem actuate_strokes_then_off (s : Servo) (n : Nat) :
    (s.actuate n).2 =
        (List.zipWith s.stroke (s.profile.dutyPlan n) (s.profile.delayPlan n)).flatten ++
          [.duty 0] ∧
      (s.profile.dutyPlan n).length = (s.profile.delayPlan n).length ∧
      (s.actuate n).1.scoopsDispensed = s.scoopsDispensed + n := by
  refine ⟨?_, ?_, Servo.scoopsDispensed_actuate s n⟩
  · -- the trace is the commands of the run as seen, and the run is `n` scoops and one off
    have htrace : (s.actuate n).2 = (s.profile.run n).map (ServoCommand.seenAt s.pwm.maxDuty) :=
      Servo.performAll_seen s _
    rw [htrace, ServoProfile.dutyPlan, ServoProfile.delayPlan,
      zipWith_flatten_replicate _ s.profile.length_scoopDuties, List.flatten_flatten,
      List.map_replicate, Servo.strokes_scoop, ServoProfile.run]
    simp [List.map_flatten, ServoCommand.seenAt]
  · simp only [ServoProfile.dutyPlan, ServoProfile.delayPlan, List.length_flatten,
      List.map_replicate, ServoProfile.length_scoopDuties]

/-- One scoop with one jiggle on a channel of largest duty 255. -/
example :
    (({ profile := { jigglesPerScoop := 1 }, pwm := { maxDuty := 255 } } : Servo).actuate 1).2 =
      [.duty 190, .delayMs 100, .duty 211, .delayMs 100, .duty 115, .delayMs 1500, .duty 211,
        .delayMs 1500, .duty 0] := by
  rfl

end PetFeeder
