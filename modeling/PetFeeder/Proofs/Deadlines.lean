import Mathlib
import PetFeeder.Script.Schedule
import PetFeeder.Proofs.ScheduleInvariant

/-!
# Countdowns as deadlines

A countdown is a deadline on a time line that the steps of `advance` move along.
`Countdown.ofDeadline due now` is the countdown of a deadline `due` seen at the instant `now`,
both in nanoseconds: before `due` the time left, after it how long ago it passed, that count
stopping at the longest duration.

* Starting a countdown at `d` sets a deadline `d` ahead (`startingAt_eq_ofDeadline`), and a step
  of `dt` moves the instant on by `dt`, firing exactly when it carries the instant across the
  deadline (`advance_ofDeadline`).
* So a countdown driven by any steps, each up to the longest duration, is read off the exact,
  unbounded sum of the steps (`countdown_follows_elapsed_time`): it is due once the sum reaches its
  duration, the time left is the difference until then, the time overdue is the excess (stopping
  at the longest duration), and exactly one step fires, the first to reach the duration.
-/

namespace PetFeeder

/-- A count no longer than the longest duration is kept as it is. -/
theorem Duration.toNanos_ofNanos_of_le {n : Nat} (h : n ≤ Duration.maxNanos) :
    (Duration.ofNanos n).toNanos = n := by
  rw [Duration.toNanos_ofNanos]
  exact Nat.min_eq_left h

namespace Countdown

/-- The countdown of a deadline `due` seen at the instant `now`: before `due` the time left,
after it how long ago it passed, stopping at the longest duration. -/
def ofDeadline (due now : Nat) : Countdown :=
  if now < due then ⟨Duration.ofNanos (due - now), none⟩
  else ⟨Duration.zero, some (Duration.ofNanos (now - due))⟩

theorem ofDeadline_of_lt {due now : Nat} (h : now < due) :
    ofDeadline due now = ⟨Duration.ofNanos (due - now), none⟩ :=
  if_pos h

theorem ofDeadline_of_le {due now : Nat} (h : due ≤ now) :
    ofDeadline due now = ⟨Duration.zero, some (Duration.ofNanos (now - due))⟩ :=
  if_neg (Nat.not_lt.2 h)

@[simp] theorem isDue_ofDeadline (due now : Nat) :
    (ofDeadline due now).isDue = decide (due ≤ now) := by
  by_cases h : due ≤ now
  · simp [ofDeadline_of_le h, isDue, h]
  · simp [ofDeadline_of_lt (Nat.lt_of_not_le h), isDue, h]

/-- Before its deadline a countdown holds the time left, when that is no longer than the longest
duration; after it, nothing. -/
theorem remaining_ofDeadline {due now : Nat} (h : due ≤ now + Duration.maxNanos) :
    (ofDeadline due now).remaining.toNanos = due - now := by
  rcases Nat.lt_or_ge now due with hlt | hle
  · rw [ofDeadline_of_lt hlt]
    exact Duration.toNanos_ofNanos_of_le (by omega)
  · rw [ofDeadline_of_le hle]
    simp only [Duration.toNanos_zero]
    omega

/-- After its deadline a countdown is overdue by the time since, stopping at the longest
duration. -/
theorem overdue_ofDeadline (due now : Nat) :
    (ofDeadline due now).overdue.map Duration.toNanos =
      if due ≤ now then some (Nat.min (now - due) Duration.maxNanos) else none := by
  by_cases h : due ≤ now
  · simp [ofDeadline_of_le h, h]
  · simp [ofDeadline_of_lt (Nat.lt_of_not_le h), h]

/-- A countdown due now is a deadline at the present instant. -/
theorem dueNow_eq_ofDeadline (now : Nat) : dueNow = ofDeadline now now := by
  rw [ofDeadline_of_le (Nat.le_refl now), Nat.sub_self]
  rfl

/-- **Starting is setting a deadline.** A countdown started at `d` is the deadline `d` ahead of
the present instant, whatever that instant is. -/
theorem startingAt_eq_ofDeadline (d : Duration) (now : Nat) :
    startingAt d = ofDeadline (now + d.toNanos) now := by
  unfold startingAt
  split
  · next hz =>
    rw [(Duration.isZero_iff d).1 hz, Nat.add_zero]
    exact dueNow_eq_ofDeadline now
  · next hz =>
    have hpos : 0 < d.toNanos := Nat.pos_of_ne_zero fun h0 => hz ((Duration.isZero_iff d).2 h0)
    rw [ofDeadline_of_lt (by omega), Nat.add_sub_cancel_left]
    congr
    exact Duration.ext (Duration.toNanos_ofNanos_of_le d.le_max).symm

/-- **A step moves the instant.** Letting `dt` pass on a deadline no further ahead than the
longest duration is seeing it `dt` later, and the step fires exactly when it carries the instant
across the deadline. -/
theorem advance_ofDeadline {due now : Nat} (h : due ≤ now + Duration.maxNanos) (dt : Duration) :
    (ofDeadline due now).advance dt =
      (ofDeadline due (now + dt.toNanos), decide (now < due ∧ due ≤ now + dt.toNanos)) := by
  have hdt := dt.le_max
  rcases Nat.lt_or_ge now due with hlt | hle
  · have hleft : (Duration.ofNanos (due - now)).toNanos = due - now :=
      Duration.toNanos_ofNanos_of_le (by omega)
    rw [ofDeadline_of_lt hlt]
    by_cases hreach : due ≤ now + dt.toNanos
    · -- the step reaches the deadline: due, overdue by what the step had left over
      rw [advance_fires _ _ rfl (by rw [Duration.le_iff, hleft]; omega), ofDeadline_of_le hreach]
      simp only [hlt, hreach, and_self, decide_true, Prod.mk.injEq, Countdown.mk.injEq, true_and,
        and_true, Option.some.injEq]
      apply Duration.ext
      rw [Duration.toNanos_satSub, hleft, Duration.toNanos_ofNanos_of_le (by omega)]
      omega
    · -- the step falls short: the time left shrinks by the step
      have hshort : now + dt.toNanos < due := Nat.lt_of_not_le hreach
      rw [advance_short _ _ rfl (by rw [Duration.le_iff, hleft]; omega), ofDeadline_of_lt hshort]
      simp only [hreach, and_false, decide_false, Prod.mk.injEq, Countdown.mk.injEq, and_true]
      apply Duration.ext
      rw [Duration.toNanos_satSub, hleft, Duration.toNanos_ofNanos_of_le (by omega)]
      omega
  · -- already due: only the time overdue grows, and it stops at the longest duration
    rw [ofDeadline_of_le hle, advance_due _ _ _ rfl, ofDeadline_of_le (by omega)]
    simp only [Nat.not_lt.2 hle, false_and, decide_false, Prod.mk.injEq, Countdown.mk.injEq,
      true_and, and_true, Option.some.injEq]
    apply Duration.ext
    simp only [Duration.toNanos_satAdd, Duration.toNanos_ofNanos, Nat.min_def]
    split <;> split <;> split <;> omega

end Countdown

namespace Script

@[simp] theorem length_runCountdown (c : Countdown) (steps : List Duration) :
    (runCountdown c steps).length = steps.length := by
  induction steps generalizing c with
  | nil => rfl
  | cons dt rest ih => simp [runCountdown, ih]

/-- **A run of steps from a deadline.** After the `k`-th step the countdown is the deadline seen
at the instant the first `k + 1` steps reach, and that step fired exactly when it crossed the
deadline. -/
theorem getElem_runCountdown_ofDeadline {due now : Nat} (h : due ≤ now + Duration.maxNanos)
    (steps : List Duration) (k : Nat)
    (hk : k < (runCountdown (Countdown.ofDeadline due now) steps).length) :
    (runCountdown (Countdown.ofDeadline due now) steps)[k] =
      (Countdown.ofDeadline due (now + ((steps.take (k + 1)).map Duration.toNanos).sum),
        decide (now + ((steps.take k).map Duration.toNanos).sum < due ∧
          due ≤ now + ((steps.take (k + 1)).map Duration.toNanos).sum)) := by
  -- the induction moves the instant along by the first step
  induction steps generalizing now k with
  | nil => simp at hk
  | cons dt rest ih =>
    simp only [runCountdown, Countdown.advance_ofDeadline h]
    cases k with
    | zero => simp
    | succ k =>
      rw [List.getElem_cons_succ, ih (by omega) k (by simpa using hk)]
      simp only [List.take_succ_cons, List.map_cons, List.sum_cons, Nat.add_assoc]

/-- The time the first `j` steps take grows with `j`. -/
theorem sum_take_mono {steps : List Duration} {i j : Nat} (h : i ≤ j) :
    ((steps.take i).map Duration.toNanos).sum ≤ ((steps.take j).map Duration.toNanos).sum :=
  ((List.take_sublist_take_left h).map _).sum_le_sum fun _ _ => Nat.zero_le _

/-- The first `k` steps stay short of `d` exactly when `d` is not zero and no earlier step
reached it. -/
theorem sum_take_lt_iff {steps : List Duration} {d k : Nat} :
    ((steps.take k).map Duration.toNanos).sum < d ↔
      0 < d ∧ ∀ j < k, ((steps.take (j + 1)).map Duration.toNanos).sum < d := by
  constructor
  · intro hk
    exact ⟨Nat.lt_of_le_of_lt (Nat.zero_le _) hk,
      fun j hj => Nat.lt_of_le_of_lt (sum_take_mono hj) hk⟩
  · rintro ⟨hd, hall⟩
    cases k with
    | zero => simpa using hd
    | succ k => exact hall k (Nat.lt_succ_self k)

end Script

open Script in
/-- **A countdown follows the time that has passed.** Start a countdown at `d` and let any steps
pass, each up to the longest duration, and measure after each step the exact, unbounded sum of
the steps so far. The countdown is due exactly once that sum reaches `d`; the time left is what
`d` exceeds it by, and nothing once due; the time overdue is the excess of the sum over `d`,
stopping at the longest duration; and a step fires exactly when it is the first to reach `d`, so
exactly one step fires if any reaches it, and none when `d` is zero. -/
theorem countdown_follows_elapsed_time (d : Duration) (steps : List Duration) :
    let run := runCountdown (Countdown.startingAt d) steps
    let elapsed := fun j => ((steps.take j).map Duration.toNanos).sum
    run.length = steps.length ∧
    ∀ k (hk : k < run.length),
      (run[k].1.isDue = true ↔ d.toNanos ≤ elapsed (k + 1)) ∧
      run[k].1.remaining.toNanos = d.toNanos - elapsed (k + 1) ∧
      run[k].1.overdue.map Duration.toNanos =
        (if d.toNanos ≤ elapsed (k + 1) then
          some (Nat.min (elapsed (k + 1) - d.toNanos) Duration.maxNanos) else none) ∧
      (run[k].2 = true ↔
        0 < d.toNanos ∧ d.toNanos ≤ elapsed (k + 1) ∧ ∀ j < k, elapsed (j + 1) < d.toNanos) := by
  intro run elapsed
  -- the countdown is the deadline `d` ahead of the instant zero
  have hstart : Countdown.startingAt d = Countdown.ofDeadline d.toNanos 0 := by
    rw [Countdown.startingAt_eq_ofDeadline d 0, Nat.zero_add]
  have hnear : d.toNanos ≤ 0 + Duration.maxNanos := by
    rw [Nat.zero_add]
    exact d.le_max
  refine ⟨length_runCountdown _ _, fun k hk => ?_⟩
  have hk' : k < (runCountdown (Countdown.ofDeadline d.toNanos 0) steps).length := by
    simpa [run, hstart] using hk
  have hrun : run[k] = (runCountdown (Countdown.ofDeadline d.toNanos 0) steps)[k] := by
    simp only [run, hstart]
  rw [hrun, getElem_runCountdown_ofDeadline hnear steps k hk']
  simp only [Nat.zero_add]
  refine ⟨by simp [elapsed], ?_, Countdown.overdue_ofDeadline _ _, ?_⟩
  · exact Countdown.remaining_ofDeadline (Nat.le_trans d.le_max (Nat.le_add_left _ _))
  · simp only [decide_eq_true_eq, elapsed]
    rw [sum_take_lt_iff]
    constructor
    · rintro ⟨⟨hd, hbefore⟩, hreach⟩
      exact ⟨hd, hreach, hbefore⟩
    · rintro ⟨hd, hreach, hbefore⟩
      exact ⟨⟨hd, hbefore⟩, hreach⟩

end PetFeeder
