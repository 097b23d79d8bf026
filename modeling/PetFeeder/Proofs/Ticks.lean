import PetFeeder.Proofs.Observed

/-!
# Ticks, one by one and in a run

A tick first lets the state machine choose (`advanceMachine`), then carries out the chosen
action (`act`). This module says once what a tick does to the controller, by the action the
schedule chose, so that statements about runs never open the controller's definitions again:

* the tick runs in the state for the schedule's next action (`tick_state`);
* a feeding lets the time the servo took pass and then notes the feeding
  (`tick_schedule_feed`); a check-in adopts the round trip's answer or its failure
  (`tick_schedule_checkIn`); a wait lets time pass (`tick_schedule_wait`); so every tick changes
  the schedule by one of its operations (`tick_schedule_cases`).

A *run* is a sequence of ticks from a controller and a world. `Controller.trace` watches each
tick on the logged world (`TickRecord`): where the controller and the world stood before it,
the state it ran in and the calls it made. Its records are the ticks of the run itself, and each
makes only the calls its action allows (`observeTick_calls`).
-/

namespace PetFeeder

open Machine

/-- A tick of the machine leaves the schedule alone: it only reads it. -/
@[simp] theorem Machine.tick_schedule (m : Machine) : m.tick.ctx.schedule = m.ctx.schedule := by
  unfold Machine.tick Machine.step
  dsimp only
  split <;> rfl

namespace Controller

variable {ω : Type} (P : Ports ω) (c : Controller) (w : ω)

/-! ## The machine's part -/

@[simp] theorem advanceMachine_schedule : c.advanceMachine.1.schedule = c.schedule :=
  Machine.tick_schedule c.machine

@[simp] theorem advanceMachine_endpoint : c.advanceMachine.1.endpoint = c.endpoint := rfl

@[simp] theorem advanceMachine_retryBackoff :
    c.advanceMachine.1.retryBackoff = c.retryBackoff := rfl

@[simp] theorem advanceMachine_action :
    c.advanceMachine.1.machine.ctx.action = c.schedule.nextAction :=
  Machine.tick_action c.machine

@[simp] theorem advanceMachine_current :
    c.advanceMachine.1.machine.current = stateFor c.schedule.nextAction :=
  Machine.tick_state c.machine

@[simp] theorem withSchedule_schedule (f : Schedule → Schedule) :
    (c.withSchedule f).schedule = f c.schedule := rfl

@[simp] theorem withSchedule_current (f : Schedule → Schedule) :
    (c.withSchedule f).machine.current = c.machine.current := rfl

/-! ## The action's part -/

/-- **Feeding.** The schedule lets the time the servo took pass, then notes the feeding. -/
theorem act_feed {n : Nat} (h : c.machine.ctx.action = .feed n) :
    ∃ e, ((c.act P).run w).1.1 = c.withSchedule fun s => (s.advance e).recordFeeding := by
  unfold act
  rw [h]
  exact ⟨_, rfl⟩

/-- **Checking in.** The schedule adopts the answer of the round trip, or retries after the
backoff when it failed; either way it learns how long the round trip took. -/
theorem act_checkIn (h : c.machine.ctx.action = .checkIn) :
    ((c.act P).run w).1.1 = c.withSchedule fun s =>
      match ((CheckIn.perform P c.endpoint c.schedule.request).run w).1 with
      | (.ok r, e) => s.applySuccess r e
      | (.error _, e) => s.applyFailure c.retryBackoff e := by
  unfold act
  rw [h]
  show ((c.checkIn P).run w).1.1 = _
  unfold checkIn
  simp only [StateT.run_bind]
  rcases (CheckIn.perform P c.endpoint c.schedule.request).run w with ⟨⟨_ | r, e⟩, w'⟩
  · rfl
  · rfl

/-- Carrying out a wait is waiting. -/
theorem act_eq_wait {d : Duration} (h : c.machine.ctx.action = .wait d) :
    ((c.act P).run w).1.1 = ((c.wait P d).run w).1 := by
  unfold act
  rw [h]
  rfl

/-- **Waiting.** The schedule only lets time pass. -/
theorem act_wait {d : Duration} (h : c.machine.ctx.action = .wait d) :
    ∃ e, ((c.act P).run w).1.1 = c.withSchedule fun s => s.advance e := by
  rw [act_eq_wait P c w h]
  unfold wait
  split
  · exact ⟨_, rfl⟩
  · exact ⟨_, rfl⟩

/-- Carrying out an action never moves the machine. -/
theorem act_current : ((c.act P).run w).1.1.machine.current = c.machine.current := by
  cases h : c.machine.ctx.action with
  | feed n =>
    obtain ⟨e, he⟩ := act_feed P c w h
    rw [he, withSchedule_current]
  | checkIn => rw [act_checkIn P c w h, withSchedule_current]
  | wait d =>
    obtain ⟨e, he⟩ := act_wait P c w h
    rw [he, withSchedule_current]

/-! ## A whole tick -/

/-- The controller a tick leaves behind is the one its action leaves. -/
theorem tick_controller : ((c.tick P).run w).1.2.2 = ((c.advanceMachine.1.act P).run w).1.1 :=
  rfl

/-- A tick runs in the state that carries out the schedule's next action. -/
theorem tick_state : ((c.tick P).run w).1.1 = stateFor c.schedule.nextAction := by
  show ((c.advanceMachine.1.act P).run w).1.1.machine.current = _
  rw [act_current, advanceMachine_current]

theorem tick_schedule_feed {n : Nat} (h : c.schedule.nextAction = .feed n) :
    ∃ e, ((c.tick P).run w).1.2.2.schedule = (c.schedule.advance e).recordFeeding := by
  obtain ⟨e, he⟩ := act_feed P c.advanceMachine.1 w (by rw [advanceMachine_action, h])
  refine ⟨e, ?_⟩
  rw [tick_controller, he, withSchedule_schedule, advanceMachine_schedule]

theorem tick_schedule_checkIn (h : c.schedule.nextAction = .checkIn) :
    ((c.tick P).run w).1.2.2.schedule =
      match ((CheckIn.perform P c.endpoint c.schedule.request).run w).1 with
      | (.ok r, e) => c.schedule.applySuccess r e
      | (.error _, e) => c.schedule.applyFailure c.retryBackoff e := by
  rw [tick_controller, act_checkIn P _ w (by rw [advanceMachine_action, h]), withSchedule_schedule]
  simp only [advanceMachine_schedule, advanceMachine_endpoint, advanceMachine_retryBackoff]

theorem tick_schedule_wait {d : Duration} (h : c.schedule.nextAction = .wait d) :
    ∃ e, ((c.tick P).run w).1.2.2.schedule = c.schedule.advance e := by
  obtain ⟨e, he⟩ := act_wait P c.advanceMachine.1 w (by rw [advanceMachine_action, h])
  refine ⟨e, ?_⟩
  rw [tick_controller, he, withSchedule_schedule, advanceMachine_schedule]

/-- **Every tick changes the schedule by its operations**: a feeding, an adopted answer, a
failure retried after the controller's backoff, or time passing. -/
theorem tick_schedule_cases :
    (∃ e, ((c.tick P).run w).1.2.2.schedule = (c.schedule.advance e).recordFeeding) ∨
      (∃ r e, ((c.tick P).run w).1.2.2.schedule = c.schedule.applySuccess r e) ∨
      (∃ e, ((c.tick P).run w).1.2.2.schedule = c.schedule.applyFailure c.retryBackoff e) ∨
      (∃ e, ((c.tick P).run w).1.2.2.schedule = c.schedule.advance e) := by
  cases ha : c.schedule.nextAction with
  | feed n => exact .inl (tick_schedule_feed P c w ha)
  | checkIn =>
    rw [tick_schedule_checkIn P c w ha]
    split
    · exact .inr (.inl ⟨_, _, rfl⟩)
    · exact .inr (.inr (.inl ⟨_, rfl⟩))
  | wait d => exact .inr (.inr (.inr (tick_schedule_wait P c w ha)))

end Controller

/-! ## Runs -/

/-- One tick as the world sees it: the controller and the world it started from, the state it
ran in, and the calls it made on the ports, in order. -/
structure TickRecord (ω : Type) where
  controller : Controller
  world : ω
  state : State
  calls : List Call

namespace Controller

variable {ω : Type} (P : Ports ω)

/-- The controller and the world after `k` ticks from `c` in `w`. -/
def afterTicks (c : Controller) (w : ω) : Nat → Controller × ω
  | 0 => (c, w)
  | k + 1 =>
    let r := ((afterTicks c w k).1.tick P).run (afterTicks c w k).2
    (r.1.2.2, r.2)

/-- Watches the tick from `c` in `w` on the logged world. -/
def observeTick (c : Controller) (w : ω) : TickRecord ω :=
  let r := (c.tick P.logged).run (w, [])
  ⟨c, w, r.1.1, r.2.2⟩

/-- The tick of the run from `c` in `w` that starts after `k` others, watched. -/
def tickAt (c : Controller) (w : ω) (k : Nat) : TickRecord ω :=
  observeTick P (afterTicks P c w k).1 (afterTicks P c w k).2

/-- The first `n` ticks of the run from `c` in `w`, each watched. -/
def trace (c : Controller) (w : ω) (n : Nat) : List (TickRecord ω) :=
  (List.range n).map (tickAt P c w)

@[simp] theorem length_trace (c : Controller) (w : ω) (n : Nat) : (trace P c w n).length = n := by
  simp [trace]

@[simp] theorem getElem_trace (c : Controller) (w : ω) (n k : Nat)
    (h : k < (trace P c w n).length) : (trace P c w n)[k] = tickAt P c w k := by
  simp [trace]

/-- The tick after the `k`-th starts where the `k`-th left the controller and the world. -/
theorem afterTicks_succ (c : Controller) (w : ω) (k : Nat) :
    afterTicks P c w (k + 1) =
      ((((afterTicks P c w k).1.tick P).run (afterTicks P c w k).2).1.2.2,
        (((afterTicks P c w k).1.tick P).run (afterTicks P c w k).2).2) :=
  rfl

variable (c : Controller) (w : ω)

@[simp] theorem observeTick_controller : (observeTick P c w).controller = c := rfl

@[simp] theorem observeTick_world : (observeTick P c w).world = w := rfl

/-- A watched tick runs in the state the tick on the bare world runs in. -/
theorem observeTick_state : (observeTick P c w).state = stateFor c.schedule.nextAction := by
  obtain ⟨calls, -, heq⟩ := tick_logged P c w []
  show ((c.tick P.logged).run (w, [])).1.1 = _
  rw [heq, tick_state]

/-- A watched tick makes only the calls the schedule's next action allows. -/
theorem observeTick_calls : ∀ x ∈ (observeTick P c w).calls, x.serves c.schedule.nextAction := by
  obtain ⟨calls, hcalls, heq⟩ := tick_logged P c w []
  show ∀ x ∈ ((c.tick P.logged).run (w, [])).2.2, _
  rw [heq, List.nil_append]
  intro x hx
  simpa using hcalls x hx

end Controller

/-- The answer the round trip from a tick's controller and world gets: on a check-in tick, the
outcome of its check-in. -/
def TickRecord.answer {ω : Type} (P : Ports ω) (r : TickRecord ω) : Except CheckInError Response :=
  ((CheckIn.perform P r.controller.endpoint r.controller.schedule.request).run r.world).1.1

end PetFeeder
