import PetFeeder.Proofs.Deadlines

/-!
# Which of two due countdowns goes first

When both countdowns of a schedule are due, the schedule serves the one overdue longer, a tie
going to the feeding. This module says what that means on the schedule's own time line.

`Schedule.Timeline m s now checkinAt feedAt` follows a schedule from a fresh one through any
sequence of its four operations, keeping the instant `now` it has reached (moved by the time it
lets pass, and by the time a failed check-in took) and the instants at which its countdowns reach
zero: the instant each was started plus the duration it was started with. Along every time line
the countdowns are those deadlines seen at `now` (`Timeline.tracks`).

Overdue times stop at the longest duration, so the order of the deadlines decides only while the
feeding's deadline is less than the longest duration past:

* with both countdowns due, the schedule checks in exactly when the check-in's deadline came
  first and the feeding has been overdue for less than the longest duration, and feeds otherwise
  (`both_due_serves_earlier_deadline`);
* two deadlines a millisecond apart, both passed by more than the longest duration, tie, and the
  feeding goes first although the check-in's deadline came first
  (`saturated_deadlines_tie_to_feeding`).
-/

namespace PetFeeder

namespace Schedule

/-- A schedule reached from a fresh one with minimum `m`, with its time line: the instant `now`
it has reached, and the instants at which its check-in countdown and its feed countdown (if any)
reach zero. Letting time pass moves `now`; a failed check-in moves it by the time the attempt
took and restarts the check-in countdown after that; a feeding and a successful check-in restart
their countdowns at `now`. -/
inductive Timeline (m : Nat) : Schedule → Nat → Nat → Option Nat → Prop
  | new : Timeline m (Schedule.new m) 0 0 none
  | advance {s : Schedule} {now checkinAt : Nat} {feedAt : Option Nat} (dt : Duration) :
      Timeline m s now checkinAt feedAt →
      Timeline m (s.advance dt) (now + dt.toNanos) checkinAt feedAt
  | recordFeeding {s : Schedule} {now checkinAt : Nat} {feedAt : Option Nat} :
      Timeline m s now checkinAt feedAt → Timeline m s.recordFeeding now now none
  | applySuccess {s : Schedule} {now checkinAt : Nat} {feedAt : Option Nat} (r : Response)
      (elapsed : Duration) :
      Timeline m s now checkinAt feedAt →
      Timeline m (s.applySuccess r elapsed) now (now + r.checkinInterval.toNanos)
        (r.feedInterval.map fun d => now + d.toNanos)
  | applyFailure {s : Schedule} {now checkinAt : Nat} {feedAt : Option Nat}
      (backoff elapsed : Duration) :
      Timeline m s now checkinAt feedAt →
      Timeline m (s.applyFailure backoff elapsed) (now + elapsed.toNanos)
        (now + elapsed.toNanos + backoff.toNanos) feedAt

/-- The countdowns of `s` are the deadlines `checkinAt` and `feedAt` seen at `now`, none of them
further ahead than the longest duration. -/
structure Tracks (s : Schedule) (now checkinAt : Nat) (feedAt : Option Nat) : Prop where
  checkin : s.nextCheckin = Countdown.ofDeadline checkinAt now
  feed : s.nextFeed = feedAt.map fun e => Countdown.ofDeadline e now
  checkin_near : checkinAt ≤ now + Duration.maxNanos
  feed_near : ∀ e ∈ feedAt, e ≤ now + Duration.maxNanos

variable {s : Schedule} {now checkinAt : Nat} {feedAt : Option Nat}

theorem tracks_new (m : Nat) : (new m).Tracks 0 0 none :=
  ⟨Countdown.dueNow_eq_ofDeadline 0, rfl, Nat.zero_le _, fun _ h => nomatch h⟩

/-- Letting `dt` pass moves both countdowns `dt` along their deadlines. -/
theorem Tracks.advance (h : s.Tracks now checkinAt feedAt) (dt : Duration) :
    (s.advance dt).Tracks (now + dt.toNanos) checkinAt feedAt := by
  refine ⟨?_, ?_, by have := h.checkin_near; omega, fun e he => ?_⟩
  · rw [nextCheckin_advance, h.checkin, Countdown.advance_ofDeadline h.checkin_near]
  · rw [nextFeed_advance, h.feed, Option.map_map]
    cases feedAt with
    | none => rfl
    | some e =>
      simp only [Option.map_some, Function.comp_apply,
        Countdown.advance_ofDeadline (h.feed_near e rfl)]
  · have := h.feed_near e he
    omega

/-- A feeding drops the feed countdown and makes the check-in due at the present instant. -/
theorem tracks_recordFeeding (s : Schedule) (now : Nat) : s.recordFeeding.Tracks now now none :=
  ⟨Countdown.dueNow_eq_ofDeadline now, rfl, Nat.le_add_right _ _, fun _ h => nomatch h⟩

/-- A successful check-in sets both deadlines its intervals ahead of the present instant. -/
theorem tracks_applySuccess (s : Schedule) (now : Nat) (r : Response) (elapsed : Duration) :
    (s.applySuccess r elapsed).Tracks now (now + r.checkinInterval.toNanos)
      (r.feedInterval.map fun d => now + d.toNanos) := by
  refine ⟨Countdown.startingAt_eq_ofDeadline _ now, ?_,
    Nat.add_le_add_left r.checkinInterval.le_max now, fun e he => ?_⟩
  · show r.feedInterval.map Countdown.startingAt = _
    rw [Option.map_map]
    congr 1
    funext d
    exact Countdown.startingAt_eq_ofDeadline d now
  · obtain ⟨d, -, rfl⟩ := Option.map_eq_some_iff.1 he
    exact Nat.add_le_add_left d.le_max now

/-- A failed check-in moves the feed countdown along by the time the attempt took, and sets the
check-in's deadline the backoff ahead of the instant the attempt ended. -/
theorem Tracks.applyFailure (h : s.Tracks now checkinAt feedAt) (backoff elapsed : Duration) :
    (s.applyFailure backoff elapsed).Tracks (now + elapsed.toNanos)
      (now + elapsed.toNanos + backoff.toNanos) feedAt := by
  have hfeed := (h.advance elapsed).feed
  rw [nextFeed_advance] at hfeed
  exact ⟨Countdown.startingAt_eq_ofDeadline _ _, hfeed,
    Nat.add_le_add_left backoff.le_max _, (h.advance elapsed).feed_near⟩

/-- **Along every time line the countdowns are its deadlines.** -/
theorem Timeline.tracks {m : Nat} (h : s.Timeline m now checkinAt feedAt) :
    s.Tracks now checkinAt feedAt := by
  induction h with
  | new => exact tracks_new m
  | advance dt _ ih => exact ih.advance dt
  | recordFeeding _ _ => exact tracks_recordFeeding _ _
  | applySuccess r elapsed _ _ => exact tracks_applySuccess _ _ r elapsed
  | applyFailure backoff elapsed _ ih => exact ih.applyFailure backoff elapsed

/-- With both deadlines passed, the schedule compares how long ago, each count stopping at the
longest duration: it checks in when the check-in has been overdue strictly longer. -/
theorem nextAction_of_deadlines {feedDue : Nat}
    (hc : s.nextCheckin = Countdown.ofDeadline checkinAt now)
    (hf : s.nextFeed = some (Countdown.ofDeadline feedDue now))
    (hcd : checkinAt ≤ now) (hfd : feedDue ≤ now) :
    s.nextAction =
      if Nat.min (now - feedDue) Duration.maxNanos < Nat.min (now - checkinAt) Duration.maxNanos
      then .checkIn else .feed s.scoopsToFeed := by
  unfold nextAction
  rw [hf, hc, Countdown.ofDeadline_of_le hcd, Countdown.ofDeadline_of_le hfd]
  rfl

end Schedule

open Schedule in
/-- **Both due: the earlier deadline goes first, up to the longest duration.** Follow a schedule
from a fresh one through any of its operations on its own time line. Whenever both of its
countdowns are due, their deadlines have passed, and the schedule checks in exactly when the
check-in's deadline came strictly first and the feeding's deadline passed less than the longest
duration ago; otherwise it feeds its scoops, so an exact tie feeds first, and so do two
deadlines both passed by the longest duration or more. -/
theorem both_due_serves_earlier_deadline {m now checkinAt feedAt : Nat} {s : Schedule}
    (h : s.Timeline m now checkinAt (some feedAt)) (hc : s.checkinDue = true)
    (hf : s.feedDue = true) :
    checkinAt ≤ now ∧ feedAt ≤ now ∧
      (s.nextAction = .checkIn ↔ checkinAt < feedAt ∧ now - feedAt < Duration.maxNanos) ∧
      (s.nextAction = .feed s.scoopsToFeed ↔
        feedAt ≤ checkinAt ∨ Duration.maxNanos ≤ now - feedAt) := by
  have ht := h.tracks
  have hcd : checkinAt ≤ now := by
    simpa [checkinDue, ht.checkin] using hc
  have hfd : feedAt ≤ now := by
    simpa [feedDue, ht.feed] using hf
  rw [nextAction_of_deadlines ht.checkin ht.feed hcd hfd]
  -- the two overdue counts, each stopping at the longest duration
  have hcmp : Nat.min (now - feedAt) Duration.maxNanos < Nat.min (now - checkinAt) Duration.maxNanos ↔
      checkinAt < feedAt ∧ now - feedAt < Duration.maxNanos := by
    simp only [Nat.min_def]
    split <;> split <;> omega
  refine ⟨hcd, hfd, ?_, ?_⟩
  · split
    · next hlt => exact ⟨fun _ => hcmp.1 hlt, fun _ => rfl⟩
    · next hge => exact ⟨(fun h => nomatch h), fun h => absurd (hcmp.2 h) hge⟩
  · split
    · next hlt =>
      refine ⟨(fun h => nomatch h), fun h => ?_⟩
      have := hcmp.1 hlt
      omega
    · next hge =>
      refine ⟨fun _ => ?_, fun _ => rfl⟩
      have := mt hcmp.2 hge
      omega

/-- A fresh schedule adopts a check-in a second ahead and a feeding three seconds ahead, then
lets five seconds pass: both are due, and the check-in, whose deadline came first, goes first. -/
theorem earlier_checkin_deadline_goes_first :
    let s := ((Schedule.new 1).applySuccess
      { checkinIntervalMs := some 1000, feedIntervalMs := some 3000 } Duration.zero).advance
        (Duration.ofMillis 5000)
    s.Timeline 1 5000000000 1000000000 (some 3000000000) ∧ s.checkinDue = true ∧
      s.feedDue = true ∧ s.nextAction = .checkIn ∧
      (1000000000 ≤ 5000000000 ∧ 3000000000 ≤ 5000000000 ∧
        (s.nextAction = .checkIn ↔ 1000000000 < 3000000000 ∧
          5000000000 - 3000000000 < Duration.maxNanos) ∧
        (s.nextAction = .feed s.scoopsToFeed ↔
          3000000000 ≤ 1000000000 ∨ Duration.maxNanos ≤ 5000000000 - 3000000000)) := by
  intro s
  have ht : s.Timeline 1 5000000000 1000000000 (some 3000000000) :=
    .advance _ (.applySuccess _ _ .new)
  have hc : s.checkinDue = true := by decide
  have hf : s.feedDue = true := by decide
  exact ⟨ht, hc, hf, by decide, both_due_serves_earlier_deadline ht hc hf⟩

/-- **Saturated overdue times tie.** A fresh schedule adopts a check-in a millisecond ahead and a
feeding two milliseconds ahead, then lets the longest duration pass twice. Both countdowns are
due and the check-in's deadline came first, yet both have been overdue for the longest duration,
and the tie goes to the feeding. -/
theorem saturated_deadlines_tie_to_feeding :
    let s := (((Schedule.new 1).applySuccess
      { checkinIntervalMs := some 1, feedIntervalMs := some 2 } Duration.zero).advance
        Duration.max).advance Duration.max
    s.Timeline 1 (Duration.maxNanos + Duration.maxNanos) 1000000 (some 2000000) ∧
      s.checkinDue = true ∧ s.feedDue = true ∧ 1000000 < 2000000 ∧
      s.nextAction = .feed s.scoopsToFeed ∧ s.nextAction ≠ .checkIn := by
  intro s
  have ht : s.Timeline 1 (Duration.maxNanos + Duration.maxNanos) 1000000 (some 2000000) :=
    .advance _ (.advance _ (.applySuccess _ _ .new))
  exact ⟨ht, by decide, by decide, by decide, by decide, by decide⟩

end PetFeeder
