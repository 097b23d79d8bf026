import Mathlib.Data.List.Chain
import PetFeeder.Proofs.Ticks
import PetFeeder.Proofs.ScheduleInvariant

/-!
# Waiting always ends in an action

The controller sleeps only to wait for the schedule, and a wait always makes progress. Over
every run of a fresh controller, whatever the transport, the servo and the clock do (a clock
that goes backwards included):

* every sleep is for the wait the schedule chose on that tick, and is never for zero time;
* the tick after a wait feeds or checks in, so no two waits follow each other.

Every tick changes the schedule by the operations `Schedule.Reachable` allows
(`tick_schedule_reachable`), so the schedule of every run stays sound and its waits are for the
nearer running countdown. A wait then lets at least that long pass (`tick_schedule_wait_ge`):
the time measured by the clock is raised to the time asked for, so the countdown is due on
the next tick.
-/

namespace PetFeeder

open Machine

namespace Call

/-- Only a wait sleeps, and for its own duration. -/
theorem serves_sleep {a : Action} {d : Duration} (h : (Call.sleep d).serves a) : a = .wait d := by
  cases a with
  | feed n => simp [serves] at h
  | checkIn => simp [serves, byCheckIn] at h
  | wait d' => simp [serves] at h; rw [h]

end Call

namespace Machine

theorem stateFor_eq_waiting {a : Action} (h : stateFor a = .waiting) : ∃ d, a = .wait d := by
  cases a with
  | feed n => cases h
  | checkIn => cases h
  | wait d => exact ⟨d, rfl⟩

theorem stateFor_of_ne_wait {a : Action} (h : ∀ d, a ≠ .wait d) :
    stateFor a = .feeding ∨ stateFor a = .checkingIn := by
  cases a with
  | feed n => exact .inl rfl
  | checkIn => exact .inr rfl
  | wait d => exact absurd rfl (h d)

end Machine

variable {ω : Type} (P : Ports ω)

namespace Controller

variable (c : Controller) (w : ω)

/-- **Waiting lets at least the time asked for pass.** A wait for a duration that is not zero
sleeps, and the schedule then runs on by the longer of the time the clock measured and the
time asked for. -/
theorem act_wait_ge {d : Duration} (h : c.machine.ctx.action = .wait d) (hd : 0 < d.toNanos) :
    ∃ e, d ≤ e ∧ ((c.act P).run w).1.1 = c.withSchedule fun s => s.advance e := by
  have hz : ¬ d.isZero = true := fun hz => by
    rw [Duration.isZero_iff] at hz
    omega
  rw [act_eq_wait P c w h]
  unfold wait
  rw [if_neg hz]
  exact ⟨_, Duration.le_maxOf_right _ _, rfl⟩

theorem tick_schedule_wait_ge {d : Duration} (h : c.schedule.nextAction = .wait d)
    (hd : 0 < d.toNanos) :
    ∃ e, d ≤ e ∧ ((c.tick P).run w).1.2.2.schedule = c.schedule.advance e := by
  obtain ⟨e, hde, he⟩ := act_wait_ge P c.advanceMachine.1 w (by rw [advanceMachine_action, h]) hd
  refine ⟨e, hde, ?_⟩
  rw [tick_controller, he, withSchedule_schedule, advanceMachine_schedule]

/-- **A tick changes the schedule only as the schedule's operations can.** A feeding lets the
servo's time pass and notes the feeding, a check-in adopts its answer or its failure, and a
wait lets time pass. -/
theorem tick_schedule_reachable {m : Nat} (h : c.schedule.Reachable m) :
    ((c.tick P).run w).1.2.2.schedule.Reachable m := by
  rcases tick_schedule_cases P c w with ⟨e, he⟩ | ⟨r, e, he⟩ | ⟨e, he⟩ | ⟨e, he⟩ <;> rw [he]
  · exact (h.advance e).recordFeeding
  · exact h.applySuccess r e
  · exact h.applyFailure _ e
  · exact h.advance e

/-- Every run of a fresh controller keeps a schedule reachable from its fresh one. -/
theorem afterTicks_reachable (ep : Endpoint) (minScoops : Nat) (backoff : Duration) (k : Nat) :
    (afterTicks P (new ep minScoops backoff) w k).1.schedule.Reachable minScoops := by
  induction k with
  | zero => exact .new
  | succ k ih =>
    rw [afterTicks_succ]
    exact tick_schedule_reachable P _ _ ih

/-- A tick that sleeps does so for the wait its schedule chose, which is never for zero time. -/
theorem observeTick_sleep {m : Nat} (hc : c.schedule.Reachable m) {d : Duration}
    (h : Call.sleep d ∈ (observeTick P c w).calls) :
    0 < d.toNanos ∧ c.schedule.nextAction = .wait d := by
  have ha := Call.serves_sleep (observeTick_calls P c w _ h)
  exact ⟨(hc.sound.nextAction_wait ha).1, ha⟩

/-- The tick after a wait does not wait. -/
theorem tick_after_wait {m : Nat} (hc : c.schedule.Reachable m) {d : Duration}
    (h : c.schedule.nextAction = .wait d) (d' : Duration) :
    ((c.tick P).run w).1.2.2.schedule.nextAction ≠ .wait d' := by
  have hs := hc.sound
  obtain ⟨e, hde, he⟩ := tick_schedule_wait_ge P c w h (hs.nextAction_wait h).1
  rw [he]
  exact Schedule.nextAction_advance_of_wait hs h hde d'

end Controller

open Controller in
/-- **The feeder never sleeps for nothing and never waits twice in a row.** In every run of a
fresh controller, against any ports: every sleep is for the wait the schedule chose on that
tick, and that wait is not zero; and a tick that ran in the waiting state is followed by one
that feeds or checks in: every two neighbouring ticks of the run are related so. -/
theorem sleeps_are_nonzero_waits_and_never_repeat (ep : Endpoint) (minScoops : Nat)
    (backoff : Duration) (w : ω) (n : Nat) :
    let rs := (new ep minScoops backoff).trace P w n
    (∀ k (hk : k < rs.length) d, Call.sleep d ∈ rs[k].calls →
      0 < d.toNanos ∧ rs[k].controller.schedule.nextAction = .wait d) ∧
    rs.IsChain (fun r r' => r.state = .waiting → r'.state = .feeding ∨ r'.state = .checkingIn) := by
  intro rs
  refine ⟨fun k hk d hsleep => ?_, List.isChain_iff_getElem.2 fun k hk hwait => ?_⟩
  · simp only [rs, getElem_trace] at hsleep ⊢
    exact observeTick_sleep P _ _ (afterTicks_reachable P w ep minScoops backoff k) hsleep
  · simp only [rs, getElem_trace] at hwait ⊢
    have hreach := afterTicks_reachable P w ep minScoops backoff k
    rw [tickAt, observeTick_state] at hwait
    obtain ⟨d, hd⟩ := stateFor_eq_waiting hwait
    rw [tickAt, observeTick_state, afterTicks_succ]
    exact stateFor_of_ne_wait (tick_after_wait P _ _ hreach hd)

end PetFeeder
