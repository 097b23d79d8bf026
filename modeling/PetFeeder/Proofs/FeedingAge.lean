import PetFeeder.Script.Schedule
import Mathlib

/-!
# How long ago the feeder fed

A schedule keeps the time since the last feeding that the server has not acknowledged, and every
check-in reports it in whole milliseconds. Replay any sequence of schedule operations on a fresh
schedule (`Script.runSchedule`). Then:

* the time is kept exactly when the sequence has a feeding and no answer after the last one
  acknowledged a feeding (`Script.FedBefore`);
* the time is then all the time that passed after that feeding (`Script.lapseSum`), stopping at
  the longest duration. That time is every step let pass, and the time taken by every check-in
  since, whether it failed or was answered without an acknowledgement;
* the report gives that time in whole milliseconds, capped at the largest 64-bit count.

Each operation does one of three things to the time. A feeding starts it at zero
(`sinceLastFeed_recordFeeding`). An acknowledging answer drops it (`sinceLastFeed_acknowledged`).
Any other operation ages it by the time the operation took (`sinceLastFeed_ages`). Saturating
at every step comes to one saturation of the whole sum (`Duration.ofNanos_satAdd`). A longer
history splits the same three ways (`fedBefore_append_singleton`).

Main statement: `sinceLastFeed_counts_from_last_feeding`.
-/

namespace PetFeeder

namespace Duration

/-- Saturating at every step of a sum is saturating once at the end. -/
theorem ofNanos_satAdd (n : Nat) (d : Duration) : (ofNanos n).satAdd d = ofNanos (n + d.toNanos) := by
  ext
  simp only [toNanos_satAdd, toNanos_ofNanos, Nat.min_def]
  split_ifs <;> omega

@[simp] theorem ofNanos_zero : ofNanos 0 = zero := rfl

end Duration

namespace Script

namespace ScheduleOp

/-- The time an operation lets pass since the last feeding: a step of time, or the time a
check-in took. A feeding itself takes none. -/
def lapse : ScheduleOp → Duration
  | .advance dt => dt
  | .recordFeeding => Duration.zero
  | .success _ elapsed => elapsed
  | .failure _ elapsed => elapsed

/-- The operation adopts an answer that acknowledges the last feeding. -/
def Acknowledges (op : ScheduleOp) : Prop :=
  ∃ r elapsed, op = .success r elapsed ∧ r.feedingAck = some true

/-! ## One operation -/

variable (s : Schedule)

theorem sinceLastFeed_recordFeeding : (recordFeeding.apply s).sinceLastFeed = some Duration.zero :=
  rfl

theorem sinceLastFeed_acknowledged {op : ScheduleOp} (h : op.Acknowledges) :
    (op.apply s).sinceLastFeed = none := by
  obtain ⟨r, elapsed, rfl, hack⟩ := h
  simp [apply, Schedule.applySuccess, Response.feedingAcknowledged, hack]

/-- Any operation but a feeding or an acknowledging answer ages the time since the last feeding
by the time it took, if there was a feeding. -/
theorem sinceLastFeed_ages {op : ScheduleOp} (hfeed : op ≠ recordFeeding)
    (hack : ¬ op.Acknowledges) :
    (op.apply s).sinceLastFeed = s.sinceLastFeed.map (·.satAdd op.lapse) := by
  cases op with
  | advance dt => rfl
  | recordFeeding => exact absurd rfl hfeed
  | success r elapsed =>
    -- an answer that does not say `some true` acknowledges nothing
    have hno : r.feedingAcknowledged = false := by
      cases ha : r.feedingAck with
      | none => simp [Response.feedingAcknowledged, ha]
      | some b =>
        cases b with
        | false => simp [Response.feedingAcknowledged, ha]
        | true => exact absurd ⟨r, elapsed, rfl, ha⟩ hack
    simp [apply, Schedule.applySuccess, hno, lapse]
  | failure backoff elapsed => rfl

end ScheduleOp

/-! ## Histories -/

/-- The schedule after the operations `ops`, applied in order to `s`. -/
def runSchedule (s : Schedule) (ops : List ScheduleOp) : Schedule :=
  ops.foldl (fun s op => op.apply s) s

theorem runSchedule_append_singleton (s : Schedule) (ops : List ScheduleOp) (op : ScheduleOp) :
    runSchedule s (ops ++ [op]) = op.apply (runSchedule s ops) := by
  simp [runSchedule]

/-- `FedBefore ops post`: `ops` has a feeding, `post` is what followed the last one, and none of
it adopted an answer acknowledging a feeding. -/
def FedBefore (ops post : List ScheduleOp) : Prop :=
  ∃ pre, ops = pre ++ .recordFeeding :: post ∧
    ∀ op ∈ post, op ≠ .recordFeeding ∧ ¬ op.Acknowledges

/-- The time the operations let pass, in nanoseconds, added up without a ceiling. -/
def lapseSum (ops : List ScheduleOp) : Nat := (ops.map fun op => op.lapse.toNanos).sum

theorem not_fedBefore_nil (post : List ScheduleOp) : ¬ FedBefore [] post := by
  rintro ⟨pre, h, -⟩
  simp at h

/-- **A history one operation longer.** It ends in a feeding, and nothing followed; or its last
operation neither feeds nor acknowledges, and follows what followed the last feeding before. -/
theorem fedBefore_append_singleton (ops post : List ScheduleOp) (op : ScheduleOp) :
    FedBefore (ops ++ [op]) post ↔
      (op = .recordFeeding ∧ post = []) ∨
        (op ≠ .recordFeeding ∧ ¬ op.Acknowledges ∧
          ∃ post', post = post' ++ [op] ∧ FedBefore ops post') := by
  constructor
  · rintro ⟨pre, heq, hall⟩
    -- split on the last operation after the feeding, if any
    rcases post.eq_nil_or_concat with rfl | ⟨post', x, rfl⟩
    · obtain ⟨-, hop⟩ := List.append_inj' heq rfl
      exact .inl ⟨List.singleton_inj.1 hop, rfl⟩
    · rw [List.concat_eq_append] at heq hall ⊢
      have heq' : ops ++ [op] = (pre ++ .recordFeeding :: post') ++ [x] := by simp [heq]
      obtain ⟨hops, hop⟩ := List.append_inj' heq' rfl
      obtain rfl := List.singleton_inj.1 hop
      obtain ⟨hfeed, hack⟩ := hall op (by simp)
      exact .inr ⟨hfeed, hack, post', rfl, pre, hops,
        fun y hy => hall y (List.mem_append_left _ hy)⟩
  · rintro (⟨rfl, rfl⟩ | ⟨hfeed, hack, post', rfl, pre, rfl, hall⟩)
    · exact ⟨ops, rfl, fun _ h => nomatch h⟩
    · refine ⟨pre, by simp, fun y hy => ?_⟩
      rcases List.mem_append.1 hy with hy | hy
      · exact hall y hy
      · rw [List.mem_singleton.1 hy]
        exact ⟨hfeed, hack⟩

/-- What a schedule after `ops` keeps of the last feeding: the time since it, saturated, while
no answer has acknowledged it; nothing when there is no such feeding. -/
structure KeepsAge (ops : List ScheduleOp) (s : Schedule) : Prop where
  fed : ∀ post, FedBefore ops post → s.sinceLastFeed = some (Duration.ofNanos (lapseSum post))
  unfed : (¬ ∃ post, FedBefore ops post) → s.sinceLastFeed = none

theorem keepsAge_new (m : Nat) : KeepsAge [] (Schedule.new m) :=
  ⟨fun post h => absurd h (not_fedBefore_nil post), fun _ => rfl⟩

/-- **One operation keeps the account.** The three cases are those of `sinceLastFeed_ages` and
its two exceptions. -/
theorem KeepsAge.apply {ops : List ScheduleOp} {s : Schedule} (h : KeepsAge ops s)
    (op : ScheduleOp) : KeepsAge (ops ++ [op]) (op.apply s) := by
  by_cases hfeed : op = .recordFeeding
  · -- a feeding: the time starts at zero, and nothing has followed it
    subst hfeed
    have hpost : ∀ post, FedBefore (ops ++ [.recordFeeding]) post ↔ post = [] := by
      intro post
      rw [fedBefore_append_singleton]
      simp
    refine ⟨fun post hp => ?_, fun hn => absurd ⟨[], (hpost []).2 rfl⟩ hn⟩
    rw [(hpost post).1 hp, ScheduleOp.sinceLastFeed_recordFeeding]
    rfl
  by_cases hack : op.Acknowledges
  · -- an acknowledging answer: no feeding is left unacknowledged
    have hnone : ∀ post, ¬ FedBefore (ops ++ [op]) post := by
      intro post hp
      rcases (fedBefore_append_singleton ops post op).1 hp with ⟨hop, -⟩ | ⟨-, hack', -⟩
      · exact hfeed hop
      · exact hack' hack
    exact ⟨fun post hp => absurd hp (hnone post),
      fun _ => ScheduleOp.sinceLastFeed_acknowledged s hack⟩
  · -- any other operation ages what is kept by the time it took
    have hsplit : ∀ post, FedBefore (ops ++ [op]) post ↔
        ∃ post', post = post' ++ [op] ∧ FedBefore ops post' := by
      intro post
      rw [fedBefore_append_singleton]
      simp [hfeed, hack]
    refine ⟨fun post hp => ?_, fun hn => ?_⟩
    · obtain ⟨post', rfl, hp'⟩ := (hsplit post).1 hp
      rw [ScheduleOp.sinceLastFeed_ages s hfeed hack, h.fed post' hp']
      simp [Duration.ofNanos_satAdd, lapseSum]
    · have hn' : ¬ ∃ post', FedBefore ops post' :=
        fun ⟨post', hp'⟩ => hn ⟨post' ++ [op], (hsplit _).2 ⟨post', rfl, hp'⟩⟩
      rw [ScheduleOp.sinceLastFeed_ages s hfeed hack, h.unfed hn']
      rfl

/-- **Every history keeps the account**, by induction on the history from its end. -/
theorem keepsAge_runSchedule (m : Nat) (ops : List ScheduleOp) :
    KeepsAge ops (runSchedule (Schedule.new m) ops) := by
  induction ops using List.reverseRecOn with
  | nil => exact keepsAge_new m
  | append_singleton ops op ih =>
    rw [runSchedule_append_singleton]
    exact ih.apply op

end Script

open Script in
/-- **The time since the last feeding counts from the last feeding until it is acknowledged.**
Replay any operations on a fresh schedule with minimum `m`: letting time pass, feeding, and
adopting a successful or failed check-in, with any durations and answers. The schedule keeps a
time since the last feeding exactly when the operations contain a feeding and no answer after
the last one acknowledged a feeding. That time is then the sum of every step let pass and of the
time every check-in since took, capped at the longest duration. The next check-in reports it in
whole milliseconds, capped at `2 ^ 64 - 1`, and reports nothing when no time is kept. -/
theorem sinceLastFeed_counts_from_last_feeding (m : Nat) (ops : List ScheduleOp) :
    let s := runSchedule (Schedule.new m) ops
    (s.sinceLastFeed.isSome ↔ ∃ post, FedBefore ops post) ∧
    (∀ post, FedBefore ops post →
      s.sinceLastFeed.map Duration.toNanos = some (Nat.min (lapseSum post) Duration.maxNanos) ∧
      s.request.sinceLastFeedMs =
        some (Nat.min (Nat.min (lapseSum post) Duration.maxNanos / 1000000) 18446744073709551615)) ∧
    ((¬ ∃ post, FedBefore ops post) → s.request.sinceLastFeedMs = none) := by
  intro s
  have hk := keepsAge_runSchedule m ops
  refine ⟨⟨fun hs => ?_, fun ⟨post, hp⟩ => by simp [s, hk.fed post hp]⟩,
    fun post hp => ?_, fun hn => ?_⟩
  · by_cases hfed : ∃ post, FedBefore ops post
    · exact hfed
    · simp [s, hk.unfed hfed] at hs
  · simp [s, hk.fed post hp, Schedule.request, Duration.millis, Duration.nanosPerMilli,
      Schedule.maxReportMs]
  · simp [s, Schedule.request, hk.unfed hn]

/-- A feeding, a second and a half, and a failed check-in that took twenty milliseconds: the
next report says 1520 milliseconds. -/
example : (Script.runSchedule (Schedule.new 1) [.recordFeeding, .advance (Duration.ofMillis 1500),
    .failure Duration.zero (Duration.ofMillis 20)]).request.sinceLastFeedMs = some 1520 := by
  decide

end PetFeeder
