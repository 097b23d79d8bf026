import PetFeeder.Schedule.Basic

/-!
# What every schedule keeps

A countdown is *consistent* when its two fields agree on whether it is due: still running with
time left, or due with nothing left (`Countdown.Consistent`). Starting, finishing and letting
time pass each keep that, for every duration up to the longest one. A schedule is *sound* when
both its countdowns are consistent and it dispenses at least its minimum (`Schedule.Sound`).

* The four operations on a schedule keep it sound (`Sound.advance`, `Sound.recordFeeding`,
  `Sound.applySuccess`, `Sound.applyFailure`), so every schedule reachable from a fresh one is
  (`Reachable.sound`).
* A sound schedule never waits for nothing and never feeds nothing: a wait is for the time left
  on the nearer of its running countdowns (`Sound.nextAction_wait`), and a feeding dispenses the
  scoops it holds, never fewer than its minimum.
* Letting at least the waited time pass makes one countdown due (`nextAction_advance_of_wait`),
  so the schedule does not wait twice in a row.
-/

namespace PetFeeder

namespace Duration

theorem min_le_left (a b : Duration) : a.min b ≤ a := by
  unfold Duration.min
  split
  · exact Nat.le_refl _
  · next h => rw [le_iff] at h ⊢; omega

theorem min_le_right (a b : Duration) : a.min b ≤ b := by
  unfold Duration.min
  split
  · next h => exact h
  · exact Nat.le_refl _

theorem le_maxOf_right (a b : Duration) : b ≤ a.maxOf b := by
  unfold maxOf
  split
  · exact Nat.le_refl _
  · next h => rw [le_iff] at h ⊢; omega

theorem min_eq_or (a b : Duration) : a.min b = a ∨ a.min b = b := by
  unfold Duration.min
  split
  · exact .inl rfl
  · exact .inr rfl

@[simp] theorem isZero_iff (d : Duration) : d.isZero = true ↔ d.toNanos = 0 := by
  simp [isZero]

end Duration

namespace Countdown

/-- The fields of a countdown agree: before it is due there is time left, and once it is due
there is none. -/
structure Consistent (c : Countdown) : Prop where
  running : c.overdue = none → 0 < c.remaining.toNanos
  due : ∀ late, c.overdue = some late → c.remaining = Duration.zero

theorem consistent_dueNow : dueNow.Consistent :=
  ⟨(fun h => nomatch h), fun _ _ => rfl⟩

theorem consistent_startingAt (d : Duration) : (startingAt d).Consistent := by
  unfold startingAt
  split
  · exact consistent_dueNow
  · next hd =>
    refine ⟨fun _ => Nat.pos_of_ne_zero fun h0 => hd ((Duration.isZero_iff d).2 h0), ?_⟩
    intro late h
    cases h

/-- **Letting time pass keeps a countdown consistent**, whatever the step: a running countdown
either keeps some time left or becomes due with none, and a due one only grows more overdue. -/
theorem Consistent.advance {c : Countdown} (h : c.Consistent) (dt : Duration) :
    (c.advance dt).1.Consistent := by
  cases ho : c.overdue with
  | some late =>
    rw [advance_due c late dt ho]
    exact ⟨(fun hn => nomatch hn), fun _ _ => h.due late ho⟩
  | none =>
    by_cases hle : c.remaining ≤ dt
    · rw [advance_fires c dt ho hle]
      exact ⟨(fun hn => nomatch hn), fun _ _ => rfl⟩
    · rw [advance_short c dt ho hle]
      refine ⟨fun _ => ?_, fun late hl => ?_⟩
      · have hlt : dt.toNanos < c.remaining.toNanos := by
          rw [Duration.le_iff] at hle
          omega
        show 0 < (c.remaining.satSub dt).toNanos
        rw [Duration.toNanos_satSub]
        omega
      · have : c.overdue = some late := hl
        rw [ho] at this
        cases this

/-- Letting time pass keeps a planned countdown consistent, if there is one. -/
theorem Consistent.map_advance {o : Option Countdown} (h : ∀ c ∈ o, c.Consistent)
    (dt : Duration) : ∀ c ∈ o.map (fun c => (c.advance dt).1), c.Consistent := by
  intro c hc
  obtain ⟨c₀, hc₀, rfl⟩ := Option.map_eq_some_iff.1 hc
  exact (h c₀ hc₀).advance dt

/-- A step at least as long as the time left makes a countdown due, and a due one stays due. -/
theorem overdue_isSome_advance {c : Countdown} {dt : Duration} (h : c.remaining ≤ dt) :
    (c.advance dt).1.overdue.isSome := by
  cases ho : c.overdue with
  | some late => rw [advance_due c late dt ho]; rfl
  | none => rw [advance_fires c dt ho h]; rfl

end Countdown

namespace Schedule

/-! ## Sound schedules -/

variable {s : Schedule}

theorem nextCheckin_advance (dt : Duration) :
    (s.advance dt).nextCheckin = (s.nextCheckin.advance dt).1 := rfl

theorem nextFeed_advance (dt : Duration) :
    (s.advance dt).nextFeed = s.nextFeed.map (fun c => (c.advance dt).1) := rfl

theorem nextFeed_applyFailure (backoff elapsed : Duration) :
    (s.applyFailure backoff elapsed).nextFeed = s.nextFeed.map (fun c => (c.advance elapsed).1) :=
  rfl

/-- Both countdowns are consistent, and a feeding dispenses at least the minimum. -/
structure Sound (s : Schedule) : Prop where
  checkin : s.nextCheckin.Consistent
  feed : ∀ c ∈ s.nextFeed, c.Consistent
  scoops : s.minScoops ≤ s.scoopsToFeed

theorem sound_new (m : Nat) : (new m).Sound :=
  ⟨Countdown.consistent_dueNow, (fun _ h => nomatch h), Nat.le_refl _⟩

theorem Sound.advance (h : s.Sound) (dt : Duration) : (s.advance dt).Sound := by
  refine ⟨h.checkin.advance dt, ?_, h.scoops⟩
  rw [nextFeed_advance]
  exact Countdown.Consistent.map_advance h.feed dt

theorem Sound.recordFeeding (h : s.Sound) : s.recordFeeding.Sound :=
  ⟨Countdown.consistent_dueNow, (fun _ hc => nomatch hc), h.scoops⟩

/-- A successful check-in restarts both countdowns from the server's intervals and raises the
server's scoop count to the minimum, whatever the answer says. -/
theorem Sound.applySuccess (r : Response) (elapsed : Duration) :
    (s.applySuccess r elapsed).Sound := by
  refine ⟨Countdown.consistent_startingAt _, fun c hc => ?_, Nat.le_max_right _ _⟩
  obtain ⟨d, -, rfl⟩ := Option.map_eq_some_iff.1 hc
  exact Countdown.consistent_startingAt d

theorem Sound.applyFailure (h : s.Sound) (backoff elapsed : Duration) :
    (s.applyFailure backoff elapsed).Sound := by
  refine ⟨Countdown.consistent_startingAt backoff, ?_, h.scoops⟩
  rw [nextFeed_applyFailure]
  exact Countdown.Consistent.map_advance h.feed elapsed

/-! ## Reachable schedules -/

/-- The schedules a feeder with minimum `m` can hold: a fresh one, and whatever letting time
pass, a feeding, a successful or a failed check-in make of one, with any durations and any
answer. -/
inductive Reachable (m : Nat) : Schedule → Prop
  | new : Reachable m (Schedule.new m)
  | advance {s : Schedule} (dt : Duration) : Reachable m s → Reachable m (s.advance dt)
  | recordFeeding {s : Schedule} : Reachable m s → Reachable m s.recordFeeding
  | applySuccess {s : Schedule} (r : Response) (elapsed : Duration) :
      Reachable m s → Reachable m (s.applySuccess r elapsed)
  | applyFailure {s : Schedule} (backoff elapsed : Duration) :
      Reachable m s → Reachable m (s.applyFailure backoff elapsed)

/-- **Every reachable schedule is sound.** -/
theorem Reachable.sound {m : Nat} (h : s.Reachable m) : s.Sound := by
  induction h with
  | new => exact sound_new m
  | advance dt _ ih => exact ih.advance dt
  | recordFeeding _ ih => exact ih.recordFeeding
  | applySuccess r elapsed _ _ => exact Sound.applySuccess r elapsed
  | applyFailure backoff elapsed _ ih => exact ih.applyFailure backoff elapsed

/-- The minimum of a reachable schedule is the one it was created with, raised to one. -/
theorem Reachable.minScoops_eq {m : Nat} (h : s.Reachable m) : s.minScoops = Nat.max m 1 := by
  induction h with
  | new => rfl
  | advance _ _ ih => exact ih
  | recordFeeding _ ih => exact ih
  | applySuccess _ _ _ ih => exact ih
  | applyFailure _ _ _ ih => exact ih

/-! ## The next action of a sound schedule -/

/-- The schedule waits only while neither countdown is due, and then for the time left on the
nearer one. -/
theorem nextAction_wait {d : Duration} (h : s.nextAction = .wait d) :
    s.nextCheckin.overdue = none ∧ (∀ c ∈ s.nextFeed, c.overdue = none) ∧
      d = (match s.nextFeed with
        | some c => c.remaining.min s.nextCheckin.remaining
        | none => s.nextCheckin.remaining) := by
  unfold nextAction at h
  split at h
  · split at h <;> cases h
  · cases h
  · cases h
  · next hf hc =>
    refine ⟨hc, fun c hmem => ?_, ?_⟩
    · rw [hmem] at hf
      exact hf
    · cases h
      cases hn : s.nextFeed <;> simp [timeToNextFeed, hn]

/-- A feeding dispenses the scoops the schedule holds. -/
theorem nextAction_feed {n : Nat} (h : s.nextAction = .feed n) : n = s.scoopsToFeed := by
  unfold nextAction at h
  split at h
  · split at h
    · cases h
    · cases h; rfl
  · cases h; rfl
  · cases h
  · cases h

/-- **A sound schedule waits for the nearer running countdown, never for nothing.** The wait is
no longer than the time left on either countdown and equal to one of them, and that time is
never zero. -/
theorem Sound.nextAction_wait (hs : s.Sound) {d : Duration} (h : s.nextAction = .wait d) :
    0 < d.toNanos ∧ d ≤ s.nextCheckin.remaining ∧ (∀ c ∈ s.nextFeed, d ≤ c.remaining) ∧
      (d = s.nextCheckin.remaining ∨ ∃ c ∈ s.nextFeed, d = c.remaining) := by
  obtain ⟨hc, hf, hd⟩ := Schedule.nextAction_wait h
  have hcpos := hs.checkin.running hc
  cases hn : s.nextFeed with
  | none =>
    rw [hn] at hd
    subst hd
    exact ⟨hcpos, Nat.le_refl _, (fun _ hm => nomatch hm), .inl rfl⟩
  | some c =>
    simp only [hn] at hd
    subst hd
    have hfpos := (hs.feed c hn).running (hf c hn)
    have hnear := Duration.min_eq_or c.remaining s.nextCheckin.remaining
    refine ⟨?_, Duration.min_le_right _ _, fun c' hc' => ?_, ?_⟩
    · rcases hnear with hm | hm <;> rw [hm] <;> assumption
    · cases hc'
      exact Duration.min_le_left _ _
    · rcases hnear with hm | hm
      · exact .inr ⟨c, rfl, hm⟩
      · exact .inl hm

/-- A sound schedule feeds at least its minimum. -/
theorem Sound.nextAction_feed (hs : s.Sound) {n : Nat} (h : s.nextAction = .feed n) :
    s.minScoops ≤ n := by
  rw [Schedule.nextAction_feed h]
  exact hs.scoops

/-- **After a wait the schedule acts.** Letting at least the waited time pass makes the nearer
countdown due, so the next action is a feeding or a check-in. -/
theorem nextAction_advance_of_wait (hs : s.Sound) {d e : Duration} (h : s.nextAction = .wait d)
    (hde : d ≤ e) (d' : Duration) : (s.advance e).nextAction ≠ .wait d' := by
  intro h'
  obtain ⟨hc, hf, -⟩ := Schedule.nextAction_wait h'
  obtain ⟨-, -, -, hnear⟩ := hs.nextAction_wait h
  have hle : ∀ r : Duration, d = r → r ≤ e := fun r hr => by
    rw [← hr]
    exact hde
  rcases hnear with hcd | ⟨c, hcm, hcd⟩
  · have := Countdown.overdue_isSome_advance (c := s.nextCheckin) (hle _ hcd)
    rw [← nextCheckin_advance, hc] at this
    cases this
  · have hmem : (c.advance e).1 ∈ (s.advance e).nextFeed := by
      rw [nextFeed_advance]
      exact Option.mem_map_of_mem _ hcm
    have := Countdown.overdue_isSome_advance (c := c) (hle _ hcd)
    rw [hf _ hmem] at this
    cases this

end Schedule

/-- **No schedule waits for nothing or feeds nothing.** Every schedule reachable from a fresh
one with minimum `m`, by letting any durations pass, feeding, and adopting any successful or
failed check-in, keeps both countdowns consistent (time left before due, none once due) and
dispenses at least its minimum, which is `m` raised to one. So it never waits for zero time,
never feeds zero scoops, and a wait is for the time left on the nearer running countdown. -/
theorem reachable_schedule_waits_and_feeds_positively {m : Nat} {s : Schedule}
    (h : s.Reachable m) :
    s.nextCheckin.Consistent ∧ (∀ c ∈ s.nextFeed, c.Consistent) ∧
      s.minScoops = Nat.max m 1 ∧ s.minScoops ≤ s.scoopsToFeed ∧
      s.nextAction ≠ .wait Duration.zero ∧ s.nextAction ≠ .feed 0 ∧
      ∀ d, s.nextAction = .wait d →
        s.nextCheckin.overdue = none ∧ (∀ c ∈ s.nextFeed, c.overdue = none) ∧
        d ≤ s.nextCheckin.remaining ∧ (∀ c ∈ s.nextFeed, d ≤ c.remaining) ∧
        (d = s.nextCheckin.remaining ∨ ∃ c ∈ s.nextFeed, d = c.remaining) := by
  have hs := h.sound
  have hmin := h.minScoops_eq
  refine ⟨hs.checkin, hs.feed, hmin, hs.scoops, fun hw => ?_, fun hf => ?_, fun d hd => ?_⟩
  · have := (hs.nextAction_wait hw).1
    simp at this
  · have hfed := hs.nextAction_feed hf
    have hone : 1 ≤ Nat.max m 1 := Nat.le_max_right m 1
    omega
  · obtain ⟨hc, hf, -⟩ := Schedule.nextAction_wait hd
    obtain ⟨-, hle, hfle, hnear⟩ := hs.nextAction_wait hd
    exact ⟨hc, hf, hle, hfle, hnear⟩

/-- A schedule with minimum zero that adopted an answer naming a feed interval of zero and then
let a second pass: it feeds one scoop, the minimum raised to one. -/
theorem armed_schedule_feeds_one_scoop :
    let s := ((Schedule.new 0).applySuccess { feedIntervalMs := some 0 } Duration.zero).advance
      (Duration.ofMillis 1000)
    s.Reachable 0 ∧ s.nextAction = .feed 1 ∧
      (s.nextCheckin.Consistent ∧ (∀ c ∈ s.nextFeed, c.Consistent) ∧
        s.minScoops = Nat.max 0 1 ∧ s.minScoops ≤ s.scoopsToFeed ∧
        s.nextAction ≠ .wait Duration.zero ∧ s.nextAction ≠ .feed 0 ∧
        ∀ d, s.nextAction = .wait d →
          s.nextCheckin.overdue = none ∧ (∀ c ∈ s.nextFeed, c.overdue = none) ∧
          d ≤ s.nextCheckin.remaining ∧ (∀ c ∈ s.nextFeed, d ≤ c.remaining) ∧
          (d = s.nextCheckin.remaining ∨ ∃ c ∈ s.nextFeed, d = c.remaining)) :=
  let h : Schedule.Reachable 0 _ := .advance _ (.applySuccess _ _ .new)
  ⟨h, by decide, reachable_schedule_waits_and_feeds_positively h⟩

end PetFeeder
