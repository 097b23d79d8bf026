import PetFeeder.Proofs.FeedingDiscipline
import PetFeeder.Proofs.WaitProgress

/-!
# The server's plan changes only when a check-in succeeds

The *plan* of a schedule is what the server last told it: when to check in, when to feed, and how
many scoops to dispense (`Schedule.plan`). Over every run of a fresh controller, whatever the
transport, the clock and the servo do:

* a tick changes the plan only if it checked in successfully; then the plan becomes the answer's
  intervals and its scoop count raised to the minimum, and both countdowns restart from the
  answer's intervals;
* a failed check-in keeps the plan, runs the feed countdown on by exactly the time the round trip
  took, and makes the next check-in due after the retry backoff;
* every servo run dispenses the scoop count that the most recent successful check-in adopted.

Letting time pass, a feeding and a failed check-in leave the plan alone (`plan_advance`,
`plan_recordFeeding`, `plan_applyFailure`), so a tick's effect on the plan is read off its
check-in (`tick_schedule_of_adopts`, `tick_schedule_of_fails`, `tick_plan_of_not_adopts`). The
invariant `LastSuccess` carries the last successful check-in along the run.
-/

namespace PetFeeder

open Machine

namespace Schedule

/-- The plan the server last gave: the check-in interval, the feed interval and the scoop
count. -/
def plan (s : Schedule) : Duration × Option Duration × Nat :=
  (s.checkinInterval, s.feedInterval, s.scoopsToFeed)

variable (s : Schedule)

@[simp] theorem plan_advance (dt : Duration) : (s.advance dt).plan = s.plan := rfl

@[simp] theorem plan_recordFeeding : s.recordFeeding.plan = s.plan := rfl

@[simp] theorem plan_applyFailure (backoff elapsed : Duration) :
    (s.applyFailure backoff elapsed).plan = s.plan := rfl

theorem plan_applySuccess (r : Response) (elapsed : Duration) :
    (s.applySuccess r elapsed).plan =
      (r.checkinInterval, r.feedInterval, Nat.max (r.scoopsToFeed.getD 0) s.minScoops) := rfl

end Schedule

theorem Machine.stateFor_eq_checkingIn {a : Action} (h : stateFor a = .checkingIn) :
    a = .checkIn := by
  cases a with
  | feed n => cases h
  | checkIn => rfl
  | wait d => cases h

variable {ω : Type} (P : Ports ω)

namespace TickRecord

/-- The tick checked in and the server's answer was `resp`. -/
def Adopts (r : TickRecord ω) (resp : Response) : Prop :=
  r.state = .checkingIn ∧ r.answer P = .ok resp

/-- The tick checked in and the check-in failed with `e`. -/
def Fails (r : TickRecord ω) (e : CheckInError) : Prop :=
  r.state = .checkingIn ∧ r.answer P = .error e

/-- How long the round trip from the tick's controller and world took by the clock. -/
def roundTripTime (r : TickRecord ω) : Duration :=
  ((CheckIn.perform P r.controller.endpoint r.controller.schedule.request).run r.world).1.2

/-- A tick that checks in either is answered or fails. -/
theorem adopts_or_fails (r : TickRecord ω) (h : r.state = .checkingIn) :
    (∃ resp, r.Adopts P resp) ∨ ∃ e, r.Fails P e := by
  cases hans : r.answer P with
  | ok resp => exact .inl ⟨resp, h, hans⟩
  | error e => exact .inr ⟨e, h, hans⟩

end TickRecord

namespace Controller

variable (c : Controller) (w : ω)

/-- The schedule a check-in tick leaves, read off the tick's answer and round-trip time. -/
theorem tick_schedule_of_checkingIn (h : (observeTick P c w).state = .checkingIn) :
    ((c.tick P).run w).1.2.2.schedule =
      match (observeTick P c w).answer P with
      | .ok resp => c.schedule.applySuccess resp ((observeTick P c w).roundTripTime P)
      | .error _ => c.schedule.applyFailure c.retryBackoff ((observeTick P c w).roundTripTime P) := by
  rw [observeTick_state] at h
  rw [tick_schedule_checkIn P c w (stateFor_eq_checkingIn h)]
  simp only [TickRecord.answer, TickRecord.roundTripTime, observeTick_controller,
    observeTick_world]
  rcases ((CheckIn.perform P c.endpoint c.schedule.request).run w).1 with ⟨_ | _, _⟩ <;> rfl

/-- **A successful check-in adopts the answer.** -/
theorem tick_schedule_of_adopts {resp : Response} (h : (observeTick P c w).Adopts P resp) :
    ((c.tick P).run w).1.2.2.schedule =
      c.schedule.applySuccess resp ((observeTick P c w).roundTripTime P) := by
  rw [tick_schedule_of_checkingIn P c w h.1, h.2]

/-- **A failed check-in retries after the backoff.** -/
theorem tick_schedule_of_fails {e : CheckInError} (h : (observeTick P c w).Fails P e) :
    ((c.tick P).run w).1.2.2.schedule =
      c.schedule.applyFailure c.retryBackoff ((observeTick P c w).roundTripTime P) := by
  rw [tick_schedule_of_checkingIn P c w h.1, h.2]

/-- **A tick without a successful check-in keeps the plan**: a feeding and a wait only let time
pass and note the feeding, and a failed check-in keeps the plan. -/
theorem tick_plan_of_not_adopts (h : ∀ resp, ¬ (observeTick P c w).Adopts P resp) :
    ((c.tick P).run w).1.2.2.schedule.plan = c.schedule.plan := by
  cases ha : c.schedule.nextAction with
  | feed n =>
    obtain ⟨e, he⟩ := tick_schedule_feed P c w ha
    rw [he, Schedule.plan_recordFeeding, Schedule.plan_advance]
  | checkIn =>
    have hstate : (observeTick P c w).state = .checkingIn := by
      rw [observeTick_state, ha]
      rfl
    rcases (observeTick P c w).adopts_or_fails P hstate with ⟨resp, hadopt⟩ | ⟨e, hfail⟩
    · exact absurd hadopt (h resp)
    · rw [tick_schedule_of_fails P c w hfail, Schedule.plan_applyFailure]
  | wait d =>
    obtain ⟨e, he⟩ := tick_schedule_wait P c w ha
    rw [he, Schedule.plan_advance]

/-- A tick never changes the fewest scoops a feeding dispenses. -/
theorem tick_minScoops :
    ((c.tick P).run w).1.2.2.schedule.minScoops = c.schedule.minScoops := by
  rcases tick_schedule_cases P c w with ⟨e, he⟩ | ⟨r, e, he⟩ | ⟨e, he⟩ | ⟨e, he⟩ <;> rw [he]
  · rw [Schedule.minScoops_recordFeeding, Schedule.minScoops_advance]
  · exact Schedule.minScoops_applySuccess _ _ _
  · exact Schedule.minScoops_applyFailure _ _ _
  · exact Schedule.minScoops_advance _ _

/-- A tick never changes how long a failed check-in waits before the next one. -/
theorem tick_retryBackoff : ((c.tick P).run w).1.2.2.retryBackoff = c.retryBackoff := by
  rw [tick_controller]
  cases h : c.advanceMachine.1.machine.ctx.action with
  | feed n =>
    obtain ⟨e, he⟩ := act_feed P _ w h
    rw [he]
    rfl
  | checkIn =>
    rw [act_checkIn P _ w h]
    rfl
  | wait d =>
    obtain ⟨e, he⟩ := act_wait P _ w h
    rw [he]
    rfl

end Controller

/-! ## Along a run -/

namespace Controller

variable (c : Controller) (w : ω)

theorem afterTicks_retryBackoff (k : Nat) :
    (afterTicks P c w k).1.retryBackoff = c.retryBackoff := by
  induction k with
  | zero => rfl
  | succ k ih =>
    rw [afterTicks_succ]
    exact (tick_retryBackoff P _ _).trans ih

/-- The invariant of a run at tick `k`: either no tick before `k` checked in successfully, or
one did, none since, and the schedule holds the scoop count it adopted. -/
def LastSuccess (k : Nat) : Prop :=
  (∀ j < k, ∀ resp, ¬ (tickAt P c w j).Adopts P resp) ∨
    ∃ j < k, ∃ resp, (tickAt P c w j).Adopts P resp ∧
      (∀ i, j < i → i < k → ∀ resp', ¬ (tickAt P c w i).Adopts P resp') ∧
      (afterTicks P c w k).1.schedule.scoopsToFeed =
        Nat.max (resp.scoopsToFeed.getD 0) (afterTicks P c w k).1.schedule.minScoops

/-- **One tick keeps the invariant.** A successful check-in becomes the last one; any other tick
keeps the plan, and with it the scoops, and the minimum never changes. -/
theorem lastSuccess_succ {k : Nat} (h : LastSuccess P c w k) : LastSuccess P c w (k + 1) := by
  have hmin : (afterTicks P c w (k + 1)).1.schedule.minScoops =
      (afterTicks P c w k).1.schedule.minScoops := by
    rw [afterTicks_succ]
    exact tick_minScoops P _ _
  by_cases hk : ∃ resp, (tickAt P c w k).Adopts P resp
  · -- the `k`-th tick checked in successfully: it is the last one now
    obtain ⟨resp, hadopt⟩ := hk
    refine .inr ⟨k, Nat.lt_succ_self k, resp, hadopt, fun i hi hik => absurd hik (by omega), ?_⟩
    rw [hmin, afterTicks_succ]
    exact congrArg (fun s => s.scoopsToFeed) (tick_schedule_of_adopts P _ _ hadopt)
  · -- any other tick keeps the plan
    have hnone : ∀ resp, ¬ (tickAt P c w k).Adopts P resp := fun resp hr => hk ⟨resp, hr⟩
    have hplan : (afterTicks P c w (k + 1)).1.schedule.plan =
        (afterTicks P c w k).1.schedule.plan := by
      rw [afterTicks_succ]
      exact tick_plan_of_not_adopts P _ _ hnone
    have hscoops : (afterTicks P c w (k + 1)).1.schedule.scoopsToFeed =
        (afterTicks P c w k).1.schedule.scoopsToFeed :=
      congrArg (fun p => p.2.2) hplan
    rcases h with hbefore | ⟨j, hj, resp, hadopt, hquiet, hs⟩
    · refine .inl fun j hj => ?_
      rcases Nat.lt_succ_iff_lt_or_eq.1 hj with hlt | rfl
      · exact hbefore j hlt
      · exact hnone
    · refine .inr ⟨j, by omega, resp, hadopt, fun i hji hik => ?_, by rw [hscoops, hmin, hs]⟩
      rcases Nat.lt_succ_iff_lt_or_eq.1 hik with hlt | rfl
      · exact hquiet i hji hlt
      · exact hnone

theorem lastSuccess_all (k : Nat) : LastSuccess P c w k := by
  induction k with
  | zero => exact .inl fun j hj => absurd hj (Nat.not_lt_zero j)
  | succ k ih => exact lastSuccess_succ P c w ih

end Controller

open Controller in
/-- **The server's plan changes only when a check-in succeeds.** In every run of a fresh
controller, against any ports, at every tick:

* a tick that did not check in successfully leaves the plan (check-in interval, feed interval,
  scoop count) as it was;
* a tick whose check-in was answered adopts the answer's intervals and its scoop count raised to
  the minimum, itself at least one, and restarts both countdowns from the answer's intervals;
* a tick whose check-in failed keeps the plan, runs the feed countdown on by exactly the time the
  round trip took, and makes the next check-in due after the retry backoff;
* a servo run dispenses the scoop count that the last successful check-in before it adopted. -/
theorem adopted_plan_changes_only_on_success (ep : Endpoint) (minScoops : Nat)
    (backoff : Duration) (w : ω) (k : Nat) :
    let c := new ep minScoops backoff
    let r := tickAt P c w k
    let s := (afterTicks P c w k).1.schedule
    let s' := (afterTicks P c w (k + 1)).1.schedule
    ((∀ resp, ¬ r.Adopts P resp) → s'.plan = s.plan) ∧
    (∀ resp, r.Adopts P resp →
      s'.plan = (resp.checkinInterval, resp.feedInterval,
        Nat.max (resp.scoopsToFeed.getD 0) (Nat.max minScoops 1)) ∧
      s'.nextCheckin = Countdown.startingAt resp.checkinInterval ∧
      s'.nextFeed = resp.feedInterval.map Countdown.startingAt) ∧
    (∀ e, r.Fails P e →
      s'.plan = s.plan ∧
      s'.nextFeed = s.nextFeed.map (fun f => (f.advance (r.roundTripTime P)).1) ∧
      s'.nextCheckin = Countdown.startingAt backoff) ∧
    (∀ n, Call.actuate n ∈ r.calls →
      ∃ j < k, ∃ resp, (tickAt P c w j).Adopts P resp ∧
        (∀ i, j < i → i < k → ∀ resp', ¬ (tickAt P c w i).Adopts P resp') ∧
        n = Nat.max (resp.scoopsToFeed.getD 0) (Nat.max minScoops 1)) := by
  intro c r s s'
  have hreach := afterTicks_reachable P w ep minScoops backoff k
  have hmin : s.minScoops = Nat.max minScoops 1 := hreach.minScoops_eq
  -- the tick after `k` ticks is `r`, watched
  have hafter : s' = (((afterTicks P c w k).1.tick P).run (afterTicks P c w k).2).1.2.2.schedule := by
    simp only [s', afterTicks_succ]
  refine ⟨fun hnone => ?_, fun resp hadopt => ?_, fun e hfail => ?_, fun n hact => ?_⟩
  · rw [hafter]
    exact tick_plan_of_not_adopts P _ _ hnone
  · rw [hafter, tick_schedule_of_adopts P _ _ hadopt]
    exact ⟨by rw [Schedule.plan_applySuccess, hmin], rfl, rfl⟩
  · rw [hafter, tick_schedule_of_fails P _ _ hfail, afterTicks_retryBackoff]
    exact ⟨Schedule.plan_applyFailure _ _ _, rfl, rfl⟩
  · -- a servo run serves a feeding, which needs an armed feed countdown, hence a success
    obtain ⟨m, hm⟩ := observeTick_actuates P _ _ ⟨n, hact⟩
    have hn : n = m := by
      have := Call.serves_actuate (observeTick_calls P _ _ _ hact)
      rw [hm] at this
      cases this
      rfl
    obtain ⟨j, hj, ⟨hstate, resp, hanswer, -⟩, -⟩ :=
      armedSince_new P w ep minScoops backoff k (Schedule.nextFeed_isSome_of_nextAction_feed _ hm)
    rcases lastSuccess_all P c w k with hnone | ⟨j', hj', resp', hadopt, hquiet, hscoops⟩
    · exact absurd ⟨hstate, hanswer⟩ (hnone j hj resp)
    · refine ⟨j', hj', resp', hadopt, hquiet, ?_⟩
      rw [hn, Schedule.nextAction_feed hm]
      show s.scoopsToFeed = _
      rw [hscoops, hmin]

end PetFeeder
