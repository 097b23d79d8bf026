import PetFeeder.Proofs.Ticks

/-!
# The feeder feeds only when the server has asked it to

The servo is the one thing the feeder does that cannot be taken back, so the controller runs it
only under a schedule the server armed. Over every run of a fresh controller, whatever the
transport answers, whatever the clock reads and whatever the servo does:

* the servo runs only on ticks that run in the feeding state;
* before the first servo run, and between any two, some tick checked in successfully with an
  answer naming a feed interval;
* the tick right after a servo run checks in, reporting the time since that feeding.

The argument rests on the feed countdown of the schedule. Only a successful check-in whose
answer names a feed interval starts it (`nextFeed_isSome_applySuccess`); letting time pass or a
failed check-in keeps it as it was, and a feeding clears it. A feeding needs it
(`nextFeed_isSome_of_nextAction_feed`), so the invariant `armedSince` (a started countdown has
a successful, feed-naming check-in behind it with no servo run since) carries the run.
-/

namespace PetFeeder

open Machine

namespace Schedule

variable (s : Schedule)

@[simp] theorem nextFeed_isSome_advance (dt : Duration) :
    (s.advance dt).nextFeed.isSome = s.nextFeed.isSome := by
  simp [advance]

@[simp] theorem nextFeed_isSome_applyFailure (backoff elapsed : Duration) :
    (s.applyFailure backoff elapsed).nextFeed.isSome = s.nextFeed.isSome := by
  simp [applyFailure]

@[simp] theorem nextFeed_recordFeeding : s.recordFeeding.nextFeed = none := rfl

/-- A successful check-in starts the feed countdown exactly when the answer names a feed
interval. -/
@[simp] theorem nextFeed_isSome_applySuccess (r : Response) (elapsed : Duration) :
    (s.applySuccess r elapsed).nextFeed.isSome = r.feedIntervalMs.isSome := by
  simp [applySuccess, Response.feedInterval]

/-- A feeding is chosen only while the feed countdown runs. -/
theorem nextFeed_isSome_of_nextAction_feed {n : Nat} (h : s.nextAction = .feed n) :
    s.nextFeed.isSome := by
  cases hf : s.nextFeed with
  | some c => rfl
  | none =>
    unfold nextAction at h
    rw [hf] at h
    split at h <;> simp_all

/-- Right after a feeding the schedule checks in. -/
@[simp] theorem nextAction_recordFeeding : s.recordFeeding.nextAction = .checkIn := rfl

/-- Right after a feeding the report carries the time since it. -/
theorem request_recordFeeding : s.recordFeeding.request.sinceLastFeedMs.isSome := rfl

@[simp] theorem nextFeed_new (m : Nat) : (new m).nextFeed = none := rfl

end Schedule

variable {ω : Type} (P : Ports ω)

namespace TickRecord

/-- Whether the tick ran the servo. -/
def Actuates (r : TickRecord ω) : Prop := ∃ n, Call.actuate n ∈ r.calls

/-- Whether the tick checked in and the server's answer named a feed interval. -/
def ArmsFeeding (r : TickRecord ω) : Prop :=
  r.state = .checkingIn ∧ ∃ resp, r.answer P = .ok resp ∧ resp.feedIntervalMs.isSome

end TickRecord

namespace Controller

variable (c : Controller) (w : ω)

/-- A tick runs the servo only when the schedule chose a feeding. -/
theorem observeTick_actuates (h : (observeTick P c w).Actuates) :
    ∃ n, c.schedule.nextAction = .feed n := by
  obtain ⟨n, hn⟩ := h
  exact ⟨n, Call.serves_actuate (observeTick_calls P c w _ hn)⟩

/-- **The feed countdown after a tick.** A tick that leaves the feed countdown running either
checked in with an answer naming a feed interval, or found it running already and did not
feed. -/
theorem tick_nextFeed_isSome (h : ((c.tick P).run w).1.2.2.schedule.nextFeed.isSome) :
    (observeTick P c w).ArmsFeeding P ∨
      (c.schedule.nextFeed.isSome ∧ ¬ (observeTick P c w).Actuates) := by
  cases ha : c.schedule.nextAction with
  | feed n =>
    obtain ⟨e, he⟩ := tick_schedule_feed P c w ha
    simp [he] at h
  | checkIn =>
    have hnot : ¬ (observeTick P c w).Actuates := fun hact => by
      obtain ⟨n, hn⟩ := observeTick_actuates P c w hact
      rw [ha] at hn
      cases hn
    rw [tick_schedule_checkIn P c w ha] at h
    rcases hp : ((CheckIn.perform P c.endpoint c.schedule.request).run w).1 with ⟨_ | r, e⟩
    · rw [hp] at h
      exact .inr ⟨by simpa using h, hnot⟩
    · rw [hp] at h
      refine .inl ⟨by rw [observeTick_state, ha]; rfl, r, ?_, by simpa using h⟩
      simp [TickRecord.answer, hp]
  | wait d =>
    obtain ⟨e, he⟩ := tick_schedule_wait P c w ha
    refine .inr ⟨by simpa [he] using h, fun hact => ?_⟩
    obtain ⟨n, hn⟩ := observeTick_actuates P c w hact
    rw [ha] at hn
    cases hn

end Controller

/-! ## Along a run -/

namespace Controller

variable (c : Controller) (w : ω)

/-- The invariant of a run at tick `k`: a running feed countdown has a tick before `k` behind
it that checked in with an answer naming a feed interval, and no servo run since. -/
def ArmedSince (k : Nat) : Prop :=
  (afterTicks P c w k).1.schedule.nextFeed.isSome →
    ∃ j < k, (tickAt P c w j).ArmsFeeding P ∧ ∀ i, j < i → i < k → ¬ (tickAt P c w i).Actuates

/-- **One tick keeps the invariant.** -/
theorem armedSince_succ {k : Nat} (h : ArmedSince P c w k) : ArmedSince P c w (k + 1) := by
  intro hfeed
  rw [afterTicks_succ] at hfeed
  rcases tick_nextFeed_isSome P _ _ hfeed with harm | ⟨hbefore, hquiet⟩
  · -- the `k`-th tick itself armed the countdown
    exact ⟨k, Nat.lt_succ_self k, harm, fun i hi hik => absurd hik (by omega)⟩
  · -- the countdown was running already, and the `k`-th tick did not feed
    obtain ⟨j, hj, harm, hnone⟩ := h hbefore
    refine ⟨j, by omega, harm, fun i hji hik => ?_⟩
    rcases Nat.lt_succ_iff_lt_or_eq.1 hik with hlt | rfl
    · exact hnone i hji hlt
    · exact hquiet

/-- **Every run of a fresh controller keeps the invariant.** A fresh schedule has no feed
countdown, so the invariant holds at the start and, by `armedSince_succ`, at every tick. -/
theorem armedSince_new (ep : Endpoint) (minScoops : Nat) (backoff : Duration) (k : Nat) :
    ArmedSince P (new ep minScoops backoff) w k := by
  induction k with
  | zero =>
    intro h
    simp [afterTicks, schedule, new, Machine.new, Context.new] at h
  | succ k ih => exact armedSince_succ P _ w ih

/-- A tick that runs the servo leaves a schedule that checks in next and reports the feeding. -/
theorem afterTicks_succ_of_actuates {k : Nat} (h : (tickAt P c w k).Actuates) :
    (afterTicks P c w (k + 1)).1.schedule.nextAction = .checkIn ∧
      (afterTicks P c w (k + 1)).1.schedule.request.sinceLastFeedMs.isSome := by
  obtain ⟨n, hn⟩ := observeTick_actuates P _ _ h
  obtain ⟨e, he⟩ := tick_schedule_feed P _ _ hn
  rw [afterTicks_succ]
  dsimp only
  rw [he]
  exact ⟨Schedule.nextAction_recordFeeding _, Schedule.request_recordFeeding _⟩

end Controller

open Controller in
/-- **The feeder feeds only when the server has asked it to.** In every run of a fresh
controller, against any ports: the servo runs only on ticks in the feeding state; every servo
run has, before it and after the previous one, a tick that checked in and got an answer naming
a feed interval; and the tick after a servo run checks in, reporting the time since the
feeding. -/
theorem servo_runs_only_after_armed_checkIn (ep : Endpoint) (minScoops : Nat)
    (backoff : Duration) (w : ω) (n : Nat) :
    let rs := (new ep minScoops backoff).trace P w n
    (∀ k (hk : k < rs.length), rs[k].Actuates → rs[k].state = .feeding) ∧
    (∀ k (hk : k < rs.length), rs[k].Actuates →
      ∃ j, ∃ _ : j < k, rs[j].ArmsFeeding P ∧ ∀ i (_ : i < k), j < i → ¬ rs[i].Actuates) ∧
    (∀ k (hk : k + 1 < rs.length), rs[k].Actuates →
      rs[k + 1].state = .checkingIn ∧ rs[k + 1].controller.schedule.request.sinceLastFeedMs.isSome) := by
  intro rs
  refine ⟨fun k hk hact => ?_, fun k hk hact => ?_, fun k hk hact => ?_⟩
  · simp only [rs, getElem_trace] at hact ⊢
    obtain ⟨m, hm⟩ := observeTick_actuates P _ _ hact
    rw [tickAt, observeTick_state, hm]
    rfl
  · simp only [rs, getElem_trace] at hact ⊢
    obtain ⟨m, hm⟩ := observeTick_actuates P _ _ hact
    obtain ⟨j, hj, harm, hnone⟩ :=
      armedSince_new P w ep minScoops backoff k (Schedule.nextFeed_isSome_of_nextAction_feed _ hm)
    exact ⟨j, hj, harm, fun i _ hji => hnone i hji (by omega)⟩
  · simp only [rs, getElem_trace] at hact ⊢
    obtain ⟨hnext, hreq⟩ := afterTicks_succ_of_actuates P _ w hact
    rw [tickAt, observeTick_state, hnext]
    exact ⟨rfl, hreq⟩

end PetFeeder
