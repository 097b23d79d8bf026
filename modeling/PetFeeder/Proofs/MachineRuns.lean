import PetFeeder.Script.Schedule
import PetFeeder.Proofs.Ticks

/-!
# What the state machine keeps along a run

A run of the state machine starts it in idle on a fresh schedule, then applies any sequence of
ticks, forced moves and changes to the schedule (`Script.runPrefix`). Over every such run:

* after every tick the action is the schedule's next action as the tick found it, and the state
  is the one that carries it out, so never idle;
* an entry handler runs exactly when the state changes, and it is the new state's own, if its row
  of the state table has one; starting in idle runs none;
* the machine counts the ticks of the run, in all and since the state last changed, and the entry
  tick never passes the tick count, so the count since the change never wraps below zero;
* the state is always one of the table's four rows, so reading it back by its index always works.

Every operation does one of two things (`MachineOp.step_cases`): it keeps the state, its entry
tick and runs no handler, or it changes the state, enters it at the present tick and runs its
handler. Each statement about runs is that fact carried along by induction on the operations.
-/

namespace PetFeeder

open Machine

namespace Machine

/-- The machine only ever reaches a state that carries out an action, and idle carries out
none. -/
theorem stateFor_ne_idle (a : Action) : stateFor a ≠ .idle := by
  cases a <;> exact fun h => nomatch h

/-- **A tick, by whether the state changes.** It counts the tick; then either it keeps the state
and its entry tick and runs no handler, or it enters a new state at this tick and runs that
state's handler. -/
theorem step_cases (m : Machine) :
    m.step.1.tickCount = m.tickCount + 1 ∧ m.step.1.ctx.totalTicks = m.tickCount + 1 ∧
      ((m.step.1.current = m.current ∧ m.step.1.entryTick = m.entryTick ∧ m.step.2 = []) ∨
        (m.step.1.current ≠ m.current ∧ m.step.1.entryTick = m.step.1.tickCount ∧
          m.step.2 = entryHandlers m.step.1.current)) := by
  unfold step
  dsimp only
  split
  · exact ⟨rfl, rfl, .inl ⟨rfl, rfl, rfl⟩⟩
  · next hne => exact ⟨rfl, rfl, .inr ⟨hne, rfl, rfl⟩⟩

/-- **A forced move, by whether the state changes.** It counts no tick; either it keeps the
state, or it enters the new one at the present tick and runs its handler. -/
theorem forceStep_cases (m : Machine) (next : State) :
    (m.forceStep next).1.tickCount = m.tickCount ∧
      (m.forceStep next).1.ctx.totalTicks = m.ctx.totalTicks ∧
      (((m.forceStep next).1.current = m.current ∧ (m.forceStep next).1.entryTick = m.entryTick ∧
          (m.forceStep next).2 = []) ∨
        ((m.forceStep next).1.current ≠ m.current ∧
          (m.forceStep next).1.entryTick = (m.forceStep next).1.tickCount ∧
          (m.forceStep next).2 = entryHandlers (m.forceStep next).1.current)) := by
  unfold forceStep
  split
  · exact ⟨rfl, rfl, .inl ⟨rfl, rfl, rfl⟩⟩
  · next hne => exact ⟨rfl, rfl, .inr ⟨hne, rfl, rfl⟩⟩

end Machine

namespace Script

/-- Whether an operation is a tick. -/
def MachineOp.isTick : MachineOp → Bool
  | .tick => true
  | _ => false

/-- The machine after the first `k` operations of `ops`, from `m`. -/
def runPrefix (m : Machine) (ops : List MachineOp) (k : Nat) : Machine :=
  (ops.take k).foldl (fun m op => op.apply m) m

namespace MachineOp

/-- **Every operation but a start, by whether the state changes.** It adds one to the tick count
if it is a tick and nothing otherwise; then either it keeps the state and the entry tick and runs
no handler, or it changes the state, enters it at the present tick and runs that state's
handler. -/
theorem step_cases (op : MachineOp) (hop : op ≠ .start) (m : Machine) :
    (op.apply m).tickCount = m.tickCount + (if op.isTick then 1 else 0) ∧
      (op.apply m).ctx.totalTicks = (if op.isTick then m.tickCount + 1 else m.ctx.totalTicks) ∧
      (((op.apply m).current = m.current ∧ (op.apply m).entryTick = m.entryTick ∧
          op.entries m = []) ∨
        ((op.apply m).current ≠ m.current ∧ (op.apply m).entryTick = (op.apply m).tickCount ∧
          op.entries m = entryHandlers (op.apply m).current)) := by
  cases op with
  | start => exact absurd rfl hop
  | tick => exact Machine.step_cases m
  | force s => exact Machine.forceStep_cases m s
  | schedule f => exact ⟨rfl, rfl, .inl ⟨rfl, rfl, rfl⟩⟩

/-- A tick records the schedule's next action, leaves the schedule as it found it, and moves to
the state that carries the action out. -/
theorem tick_follows_schedule (m : Machine) :
    (tick.apply m).ctx.action = m.ctx.schedule.nextAction ∧
      (tick.apply m).ctx.schedule = m.ctx.schedule ∧
      (tick.apply m).current = stateFor (tick.apply m).ctx.action := by
  refine ⟨Machine.tick_action m, Machine.tick_schedule m, ?_⟩
  show m.tick.current = stateFor m.tick.ctx.action
  rw [Machine.tick_state, Machine.tick_action]

end MachineOp

/-- The counts agree: the context's total is the machine's tick count, and the state was entered
at a tick already counted. -/
structure Counted (m : Machine) : Prop where
  total : m.ctx.totalTicks = m.tickCount
  entry_le : m.entryTick ≤ m.tickCount

theorem Counted.apply {m : Machine} (h : Counted m) (op : MachineOp) (hop : op ≠ .start) :
    Counted (op.apply m) := by
  obtain ⟨htick, htotal, hcases⟩ := op.step_cases hop m
  have := h.entry_le
  refine ⟨?_, ?_⟩
  · rw [htotal, htick]
    cases op.isTick
    · exact h.total
    · rfl
  · rcases hcases with ⟨-, hentry, -⟩ | ⟨-, hentry, -⟩
    · rw [hentry, htick]
      omega
    · exact Nat.le_of_eq hentry

variable (m : Machine) (ops : List MachineOp)

theorem runPrefix_zero : runPrefix m ops 0 = m := rfl

/-- The machine after `k + 1` operations is the `k`-th applied to the machine after `k`. -/
theorem runPrefix_succ {k : Nat} (hk : k < ops.length) :
    runPrefix m ops (k + 1) = ops[k].apply (runPrefix m ops k) := by
  simp only [runPrefix, List.take_add_one, List.getElem?_eq_getElem hk, Option.toList_some,
    List.foldl_append, List.foldl_cons, List.foldl_nil]

variable {m ops}

/-- The counts agree at every point of a run without a start. -/
theorem counted_runPrefix (h : Counted m) (hops : MachineOp.start ∉ ops) :
    ∀ k ≤ ops.length, Counted (runPrefix m ops k) := by
  intro k hk
  induction k with
  | zero => exact h
  | succ k ih =>
    rw [runPrefix_succ m ops hk]
    exact (ih (by omega)).apply _ fun he => hops (he ▸ List.getElem_mem _)

/-- The tick count of a run without a start grows by its ticks. -/
theorem tickCount_runPrefix (hops : MachineOp.start ∉ ops) :
    ∀ k ≤ ops.length,
      (runPrefix m ops k).tickCount = m.tickCount + (ops.take k).countP MachineOp.isTick := by
  intro k hk
  induction k with
  | zero => simp [runPrefix_zero]
  | succ k ih =>
    rw [runPrefix_succ m ops hk,
      ((ops[k]).step_cases (fun he => hops (he ▸ List.getElem_mem _)) (runPrefix m ops k)).1,
      ih (by omega), List.take_add_one, List.getElem?_eq_getElem hk, Option.toList_some,
      List.countP_append, List.countP_singleton]
    omega

/-- While the state does not change, the entry tick stays where it was. -/
theorem entryTick_runPrefix_stable (hops : MachineOp.start ∉ ops) {j : Nat} :
    ∀ i, j ≤ i → i ≤ ops.length →
      (∀ l, j < l → l ≤ i → (runPrefix m ops l).current = (runPrefix m ops (l - 1)).current) →
      (runPrefix m ops i).entryTick = (runPrefix m ops j).entryTick := by
  intro i hji hi hsame
  induction i with
  | zero => rw [Nat.le_zero.1 hji]
  | succ i ih =>
    rcases Nat.lt_or_ge j (i + 1) with hlt | hge
    · -- the last operation kept the state, so it kept the entry tick
      have hkeep := hsame (i + 1) hlt (Nat.le_refl _)
      rw [Nat.add_sub_cancel] at hkeep
      rw [runPrefix_succ m ops hi] at hkeep ⊢
      have hcases :=
        ((ops[i]).step_cases (fun he => hops (he ▸ List.getElem_mem _)) (runPrefix m ops i)).2.2
      rcases hcases with ⟨-, hentry, -⟩ | ⟨hne, -, -⟩
      · rw [hentry, ih (by omega) (by omega) fun l hl hli => hsame l hl (by omega)]
      · exact absurd hkeep hne
    · rw [Nat.le_antisymm hji hge]

/-- Where an operation changed the state, the state was entered at that point's tick count. -/
theorem entryTick_runPrefix_of_change (hops : MachineOp.start ∉ ops) {j : Nat} (hj : j ≤ ops.length)
    (hchange : j = 0 ∨ (runPrefix m ops j).current ≠ (runPrefix m ops (j - 1)).current)
    (hm : m.entryTick = m.tickCount) :
    (runPrefix m ops j).entryTick = (runPrefix m ops j).tickCount := by
  cases j with
  | zero => exact hm
  | succ j =>
    have hne : (runPrefix m ops (j + 1)).current ≠ (runPrefix m ops j).current := by
      rcases hchange with h0 | h
      · exact absurd h0 (Nat.succ_ne_zero j)
      · simpa using h
    rw [runPrefix_succ m ops hj] at hne ⊢
    rcases ((ops[j]).step_cases (fun he => hops (he ▸ List.getElem_mem _)) (runPrefix m ops j)).2.2 with
      ⟨hsame, -, -⟩ | ⟨-, hentry, -⟩
    · exact absurd hsame hne
    · exact hentry

end Script

open Script in
/-- **The state machine follows the schedule and counts its ticks.** Start the machine in idle on
a fresh schedule and apply any ticks, forced moves and changes to the schedule. Starting in idle
runs no entry handler. After every operation:

* if it was a tick, the action is the schedule's next action as the tick found it, the tick left
  the schedule alone, and the state is the one that carries the action out, never idle;
* it ran an entry handler exactly when it changed the state, and then the new state's own;
* the tick count and the context's total are the number of ticks so far, the state was entered at
  a tick already counted, and the ticks in the current state are the ticks since the state last
  changed (none on the operation that changed it);
* the state has an index below four, which reads back to it. -/
theorem machine_runs_follow_schedule (minScoops : Nat) (ops : List MachineOp)
    (hops : MachineOp.start ∉ ops) :
    let m₀ := Machine.new .idle (Context.new (Schedule.new minScoops))
    m₀.startEntries = [] ∧
    ∀ k (hk : k < ops.length),
      let before := runPrefix m₀ ops k
      let after := runPrefix m₀ ops (k + 1)
      (ops[k] = .tick →
        after.ctx.action = before.ctx.schedule.nextAction ∧
          after.ctx.schedule = before.ctx.schedule ∧
          after.current = stateFor after.ctx.action ∧ after.current ≠ .idle) ∧
      ops[k].entries before =
        (if after.current = before.current then [] else entryHandlers after.current) ∧
      after.tickCount = (ops.take (k + 1)).countP MachineOp.isTick ∧
      after.ctx.totalTicks = after.tickCount ∧ after.entryTick ≤ after.tickCount ∧
      (∀ j ≤ k + 1,
        (j = 0 ∨ (runPrefix m₀ ops j).current ≠ (runPrefix m₀ ops (j - 1)).current) →
        (∀ l, j < l → l ≤ k + 1 →
          (runPrefix m₀ ops l).current = (runPrefix m₀ ops (l - 1)).current) →
        after.ticksInCurrentState = ((ops.take (k + 1)).drop j).countP MachineOp.isTick) ∧
      after.current.index < 4 ∧ State.ofIndex? after.current.index = some after.current := by
  intro m₀
  have hm₀ : Counted m₀ := ⟨rfl, Nat.le_refl _⟩
  refine ⟨rfl, fun k hk => ?_⟩
  intro before after
  have hop : ops[k] ≠ .start := fun he => hops (he ▸ List.getElem_mem _)
  have hafter : after = ops[k].apply before := runPrefix_succ m₀ ops hk
  -- the fresh machine has counted no ticks, so the count is the number of ticks so far
  have hticks : ∀ i ≤ ops.length,
      (runPrefix m₀ ops i).tickCount = (ops.take i).countP MachineOp.isTick := by
    intro i hi
    have hcount := tickCount_runPrefix (m := m₀) hops i hi
    rwa [show m₀.tickCount = 0 from rfl, Nat.zero_add] at hcount
  have hcount : after.tickCount = (ops.take (k + 1)).countP MachineOp.isTick := hticks (k + 1) hk
  have hcounted : Counted after := counted_runPrefix hm₀ hops (k + 1) hk
  refine ⟨fun htick => ?_, ?_, hcount, hcounted.total, hcounted.entry_le, ?_, ?_, ?_⟩
  · -- a tick: read off what the tick does
    obtain ⟨haction, hsched, hstate⟩ := MachineOp.tick_follows_schedule before
    rw [hafter, htick]
    refine ⟨haction, hsched, hstate, ?_⟩
    rw [hstate]
    exact stateFor_ne_idle _
  · -- the entry handlers: none when the state stays, the new state's when it changes
    rw [hafter]
    rcases ((ops[k]).step_cases hop before).2.2 with ⟨hsame, -, hentries⟩ | ⟨hne, -, hentries⟩
    · rw [if_pos hsame, hentries]
    · rw [if_neg hne, hentries]
  · -- ticks since the last change: the entry tick is the tick count at the change
    intro j hj hchange hsince
    have hentry : after.entryTick = (runPrefix m₀ ops j).tickCount := by
      rw [entryTick_runPrefix_stable hops (k + 1) hj hk hsince,
        entryTick_runPrefix_of_change hops (by omega) hchange rfl]
    have hj' := hticks j (by omega)
    have hsplit : (ops.take (k + 1)).countP MachineOp.isTick =
        (ops.take j).countP MachineOp.isTick +
          ((ops.take (k + 1)).drop j).countP MachineOp.isTick := by
      have hparts := List.take_append_drop j (ops.take (k + 1))
      rw [List.take_take, Nat.min_eq_left hj] at hparts
      rw [← List.countP_append, hparts]
    show after.tickCount - after.entryTick = _
    rw [hentry, hj', hcount, hsplit]
    omega
  · cases after.current <;> decide
  · exact State.ofIndex?_index _

/-- A run that ticks, is forced to waiting, and ticks again: the machine moves from idle to
checking in, is forced to waiting, and its next tick brings it back to checking in, the fresh
schedule's check-in being still due. -/
theorem tick_force_tick_run :
    Script.MachineOp.start ∉ [.tick, .force .waiting, .tick] ∧
      (Script.runPrefix (Machine.new .idle (Context.new (Schedule.new 1)))
        [.tick, .force .waiting, .tick] 3).current = .checkingIn ∧
      ((Machine.new .idle (Context.new (Schedule.new 1))).startEntries = [] ∧
        ∀ k (hk : k < [Script.MachineOp.tick, .force .waiting, .tick].length),
          let ops : List Script.MachineOp := [.tick, .force .waiting, .tick]
          let m₀ := Machine.new .idle (Context.new (Schedule.new 1))
          let before := Script.runPrefix m₀ ops k
          let after := Script.runPrefix m₀ ops (k + 1)
          (ops[k] = .tick →
            after.ctx.action = before.ctx.schedule.nextAction ∧
              after.ctx.schedule = before.ctx.schedule ∧
              after.current = stateFor after.ctx.action ∧ after.current ≠ .idle) ∧
          ops[k].entries before =
            (if after.current = before.current then [] else entryHandlers after.current) ∧
          after.tickCount = (ops.take (k + 1)).countP Script.MachineOp.isTick ∧
          after.ctx.totalTicks = after.tickCount ∧ after.entryTick ≤ after.tickCount ∧
          (∀ j ≤ k + 1,
            (j = 0 ∨ (Script.runPrefix m₀ ops j).current ≠
              (Script.runPrefix m₀ ops (j - 1)).current) →
            (∀ l, j < l → l ≤ k + 1 →
              (Script.runPrefix m₀ ops l).current = (Script.runPrefix m₀ ops (l - 1)).current) →
            after.ticksInCurrentState = ((ops.take (k + 1)).drop j).countP Script.MachineOp.isTick) ∧
          after.current.index < 4 ∧ State.ofIndex? after.current.index = some after.current) :=
  have hops : Script.MachineOp.start ∉ ([.tick, .force .waiting, .tick] : List Script.MachineOp) := by
    simp
  ⟨hops, by decide, machine_runs_follow_schedule 1 _ hops⟩

end PetFeeder
