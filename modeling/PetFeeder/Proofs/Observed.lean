import PetFeeder.Controller

/-!
# Watching the ports

The controller is written against `Ports ω` for an arbitrary world `ω`, so what it does to
the world can only be seen through a world that keeps a record. `Ports.logged P` is such a
world: every operation runs as in `P`, and the call is appended to a log kept beside it.

* `Mirrors ok x y` says that `x`, run on the logged world, does exactly what `y` does on the
  bare world and only appends calls satisfying `ok`. It composes along `bind`, `pure` and
  `if`, and every port operation mirrors its own un-logged form.
* The answer loops `awaitStatus` and `drain` mirror themselves, logging only reads; so the
  whole check-in round trip mirrors itself, logging only clock readings, status phases and
  transport calls (`perform_logged`).
* A controller tick mirrors itself and makes only the calls its chosen action allows
  (`Controller.tick_logged`): the servo only for a feeding, a sleep only for a wait of that
  length, the transport only for a check-in.
-/

namespace PetFeeder

/-- An operation the feeder's logic performs on its ports, as a log records it. -/
inductive Call
  | now
  | sleep (d : Duration)
  | actuate (cycles : Nat)
  | signal (p : Phase)
  | connect (ep : Endpoint)
  | send (bytes : List UInt8)
  | readByte
  | close
deriving DecidableEq

namespace Call

/-- Whether a check-in may make the call: anything but a sleep or a servo run. -/
def byCheckIn : Call → Bool
  | .sleep _ => false
  | .actuate _ => false
  | _ => true

/-- The calls that carrying out an action may make. A feeding shows its phase, reads the
clock and runs the servo for its scoops; a check-in reads the clock, shows phases and uses the
transport; a wait reads the clock and sleeps for exactly its duration. -/
def serves : Action → Call → Bool
  | .feed n, c => c == .signal .feeding || c == .now || c == .actuate n
  | .checkIn, c => c.byCheckIn
  | .wait d, c => c == .now || c == .sleep d

/-- Only a feeding runs the servo, and for its own scoops. -/
theorem serves_actuate {a : Action} {n : Nat} (h : (Call.actuate n).serves a) : a = .feed n := by
  cases a with
  | feed m => simp [serves] at h; rw [h]
  | checkIn => simp [serves, byCheckIn] at h
  | wait d => simp [serves] at h

end Call

namespace Ports

variable {ω α : Type}

/-- Runs an operation on the world and appends `c` to the log. -/
def record (c : Call) (x : StateM ω α) : StateM (ω × List Call) α := fun v =>
  let r := x.run v.1
  (r.1, (r.2, v.2 ++ [c]))

/-- The ports of `P`, on a world that logs every call. -/
def logged (P : Ports ω) : Ports (ω × List Call) where
  now := record .now P.now
  sleep d := record (.sleep d) (P.sleep d)
  actuate n := record (.actuate n) (P.actuate n)
  signal p := record (.signal p) (P.signal p)
  connect ep := record (.connect ep) (P.connect ep)
  send bs := record (.send bs) (P.send bs)
  readByte := record .readByte P.readByte
  close := record .close P.close
  pending v := P.pending v.1
  pending_readByte v h := P.pending_readByte v.1 h

end Ports

/-- `x` on the logged world does what `y` does on the bare world, and appends to the log only
calls that satisfy `ok`. -/
def Mirrors {ω α : Type} (ok : Call → Prop) (x : StateM (ω × List Call) α) (y : StateM ω α) :
    Prop :=
  ∀ w log, ∃ calls, (∀ c ∈ calls, ok c) ∧
    x.run (w, log) = ((y.run w).1, (y.run w).2, log ++ calls)

namespace Mirrors

variable {ω α β : Type} {ok : Call → Prop}

theorem pure (a : α) : Mirrors (ω := ω) ok (pure a) (pure a) :=
  fun _ _ => ⟨[], by simp, by rw [List.append_nil]; rfl⟩

/-- **Sequencing.** The calls of `x >>= f` are those of `x`, then those of `f`. -/
theorem bind {x : StateM (ω × List Call) α} {y : StateM ω α} {f : α → StateM (ω × List Call) β}
    {g : α → StateM ω β} (hx : Mirrors ok x y) (hf : ∀ a, Mirrors ok (f a) (g a)) :
    Mirrors ok (x >>= f) (y >>= g) := by
  intro w log
  obtain ⟨c₁, hc₁, hx⟩ := hx w log
  obtain ⟨c₂, hc₂, hf⟩ := hf (y.run w).1 (y.run w).2 (log ++ c₁)
  refine ⟨c₁ ++ c₂, ?_, ?_⟩
  · intro c hc
    rcases List.mem_append.1 hc with h | h
    · exact hc₁ c h
    · exact hc₂ c h
  · rw [StateT.run_bind, hx, ← List.append_assoc]
    exact hf

theorem ite {c : Prop} [Decidable c] {x x' : StateM (ω × List Call) α} {y y' : StateM ω α}
    (h : c → Mirrors ok x y) (h' : ¬ c → Mirrors ok x' y') :
    Mirrors ok (if c then x else x') (if c then y else y') := by
  by_cases hc : c
  · simpa [hc] using h hc
  · simpa [hc] using h' hc

theorem mono {ok' : Call → Prop} {x : StateM (ω × List Call) α} {y : StateM ω α}
    (h : Mirrors ok x y) (hok : ∀ c, ok c → ok' c) : Mirrors ok' x y := fun w log =>
  let ⟨calls, hc, heq⟩ := h w log
  ⟨calls, fun c hm => hok c (hc c hm), heq⟩

theorem record {c : Call} (hc : ok c) (y : StateM ω α) : Mirrors ok (Ports.record c y) y :=
  fun _ _ => ⟨[c], by simpa using hc, rfl⟩

/-! ### Each port operation mirrors itself -/

variable {P : Ports ω}

theorem now (h : ok .now) : Mirrors ok P.logged.now P.now := record h _

theorem sleep {d : Duration} (h : ok (.sleep d)) : Mirrors ok (P.logged.sleep d) (P.sleep d) :=
  record h _

theorem actuate {n : Nat} (h : ok (.actuate n)) :
    Mirrors ok (P.logged.actuate n) (P.actuate n) :=
  record h _

theorem signal {p : Phase} (h : ok (.signal p)) : Mirrors ok (P.logged.signal p) (P.signal p) :=
  record h _

theorem connect {ep : Endpoint} (h : ok (.connect ep)) :
    Mirrors ok (P.logged.connect ep) (P.connect ep) :=
  record h _

theorem send {bs : List UInt8} (h : ok (.send bs)) : Mirrors ok (P.logged.send bs) (P.send bs) :=
  record h _

theorem close (h : ok .close) : Mirrors ok P.logged.close P.close := record h _

end Mirrors

/-! ## The answer loops -/

namespace CheckIn

variable {ω : Type} (P : Ports ω) (p : Http.ResponseParser) (body : Array UInt8) (w : ω)

/-- Once the parser knows the status, waiting for it reads nothing more. -/
theorem awaitStatus_known {s : Http.Status} (hs : p.status = some s) :
    awaitStatus P p body w = ((s, p, body), w) := by
  rw [awaitStatus.eq_def]
  simp only [hs]

/-- An answer that ends before the status is known finishes the parser. -/
theorem awaitStatus_end {w' : ω} (hs : p.status = none) (hr : P.readByte.run w = (none, w')) :
    awaitStatus P p body w = ((p.finish.2, p.finish.1, body), w') := by
  rw [awaitStatus.eq_def]
  simp only [hs]
  split
  · next heq => rw [hr] at heq; cases heq; rfl
  · next heq => rw [hr] at heq; cases heq

/-- A byte read before the status is known goes to the parser, and waiting goes on. -/
theorem awaitStatus_byte {w' : ω} {b : UInt8} (hs : p.status = none)
    (hr : P.readByte.run w = (some b, w')) :
    awaitStatus P p body w = awaitStatus P (p.step b).1
      (match (p.step b).2 with
        | some x => body.push x
        | none => body) w' := by
  rw [awaitStatus.eq_def]
  simp only [hs]
  split
  · next heq => rw [hr] at heq; cases heq
  · next heq => rw [hr] at heq; cases heq; rfl

theorem drain_end {w' : ω} (hr : P.readByte.run w = (none, w')) :
    drain P p body w = ((p, body), w') := by
  rw [drain.eq_def]
  split
  · next heq => rw [hr] at heq; cases heq; rfl
  · next heq => rw [hr] at heq; cases heq

theorem drain_byte {w' : ω} {b : UInt8} (hr : P.readByte.run w = (some b, w')) :
    drain P p body w = drain P (p.step b).1
      (match (p.step b).2 with
        | some x => body.push x
        | none => body) w' := by
  rw [drain.eq_def]
  split
  · next heq => rw [hr] at heq; cases heq
  · next heq => rw [hr] at heq; cases heq; rfl

end CheckIn

namespace Mirrors

variable {ω : Type} (P : Ports ω)

/-- The logged world delivers the same bytes, and logs the read. -/
theorem readByte_run (w : ω) (log : List Call) :
    P.logged.readByte.run (w, log) =
      ((P.readByte.run w).1, (P.readByte.run w).2, log ++ [.readByte]) := rfl

/-- A read that delivers a byte brings the world closer to the end of the answer. -/
theorem pending_lt {w w' : ω} {b : UInt8} (hr : P.readByte.run w = (some b, w')) :
    P.pending w' < P.pending w := by
  have := P.pending_readByte w (by simp [hr])
  simpa [hr] using this

/-- **Waiting for the status, logged.** The loop reads the same bytes on both worlds; the
induction follows the bytes the transport has left to deliver. -/
theorem awaitStatus (p : Http.ResponseParser) (body : Array UInt8) :
    Mirrors (· = .readByte) (fun v => CheckIn.awaitStatus P.logged p body v)
      (fun w => CheckIn.awaitStatus P p body w) := by
  intro w log
  induction w using (measure P.pending).wf.induction generalizing p body log with
  | h w ih =>
  simp only [StateT.run]
  cases hs : p.status with
  | some s =>
    rw [CheckIn.awaitStatus_known _ _ _ _ hs, CheckIn.awaitStatus_known _ _ _ _ hs]
    exact ⟨[], by simp, by simp⟩
  | none =>
    have hl := readByte_run P w log
    rcases hr : P.readByte.run w with ⟨_ | b, w'⟩
    · rw [hr] at hl
      rw [CheckIn.awaitStatus_end _ _ _ _ hs hl, CheckIn.awaitStatus_end _ _ _ _ hs hr]
      exact ⟨[.readByte], by simp, rfl⟩
    · rw [hr] at hl
      rw [CheckIn.awaitStatus_byte _ _ _ _ hs hl, CheckIn.awaitStatus_byte _ _ _ _ hs hr]
      obtain ⟨calls, hc, heq⟩ := ih w' (pending_lt P hr) (p.step b).1
        (match (p.step b).2 with
          | some x => body.push x
          | none => body) (log ++ [.readByte])
      refine ⟨.readByte :: calls, ?_, ?_⟩
      · simpa using hc
      · simpa [StateT.run] using heq

/-- **Reading the body, logged.** -/
theorem drain (p : Http.ResponseParser) (body : Array UInt8) :
    Mirrors (· = .readByte) (fun v => CheckIn.drain P.logged p body v)
      (fun w => CheckIn.drain P p body w) := by
  intro w log
  induction w using (measure P.pending).wf.induction generalizing p body log with
  | h w ih =>
  simp only [StateT.run]
  have hl := readByte_run P w log
  rcases hr : P.readByte.run w with ⟨_ | b, w'⟩
  · rw [hr] at hl
    rw [CheckIn.drain_end _ _ _ _ hl, CheckIn.drain_end _ _ _ _ hr]
    exact ⟨[.readByte], by simp, rfl⟩
  · rw [hr] at hl
    rw [CheckIn.drain_byte _ _ _ _ hl, CheckIn.drain_byte _ _ _ _ hr]
    obtain ⟨calls, hc, heq⟩ := ih w' (pending_lt P hr) (p.step b).1
      (match (p.step b).2 with
        | some x => body.push x
        | none => body) (log ++ [.readByte])
    refine ⟨.readByte :: calls, ?_, ?_⟩
    · simpa using hc
    · simpa [StateT.run] using heq

end Mirrors

/-! ## The check-in and the controller, logged -/

namespace CheckIn

variable {ω : Type} (P : Ports ω) (ep : Endpoint) (q : Request)

/-- **The round trip, logged.** It does on the logged world what it does on the bare one, and
its calls are all clock readings, phases and transport calls. -/
theorem roundTrip_logged :
    Mirrors (fun c => c.byCheckIn) (roundTrip P.logged ep q) (roundTrip P ep q) := by
  unfold roundTrip
  refine .bind (.signal rfl) fun _ => .bind (.connect rfl) fun _ => ?_
  refine .ite (fun _ => .pure _) fun _ => .bind (.signal rfl) fun _ => ?_
  rcases requestBytes ep q with e | tx
  · exact .bind (.close rfl) fun _ => .pure _
  refine .bind (.send rfl) fun _ => ?_
  refine .ite (fun _ => .bind (.close rfl) fun _ => .pure _) fun _ => ?_
  -- the two answer loops log only reads, which a check-in may make
  have hread : ∀ c : Call, c = .readByte → c.byCheckIn := by
    intro c hc
    rw [hc]
    rfl
  refine .bind (.signal rfl) fun _ =>
    .bind ((Mirrors.awaitStatus P _ _).mono hread) fun ⟨status, p, body⟩ => ?_
  cases status
  case ok =>
    refine .bind ((Mirrors.drain P _ _).mono hread) fun ⟨_, body⟩ => ?_
    refine .bind (.close rfl) fun _ => .bind (.signal rfl) fun _ => ?_
    rcases (Wire.decode body.toList : Except DecodeError Response) with e | r
    · exact .pure _
    · exact .pure _
  all_goals exact .bind (.close rfl) fun _ => .pure _

/-- **A timed check-in, logged.** -/
theorem perform_logged :
    Mirrors (fun c => c.byCheckIn) (perform P.logged ep q) (perform P ep q) := by
  unfold perform
  refine .bind (.now rfl) fun _ => .bind (roundTrip_logged P ep q) fun result => ?_
  refine .bind (.now rfl) fun _ => ?_
  rcases result with e | r
  · exact .bind (.signal rfl) fun _ => .pure _
  · exact .bind (.signal rfl) fun _ => .pure _

end CheckIn

namespace Controller

variable {ω : Type} (P : Ports ω) (c : Controller)

theorem feed_logged (n : Nat) :
    Mirrors (fun x => x.serves (.feed n)) (c.feed P.logged n) (c.feed P n) := by
  unfold Controller.feed
  exact .bind (.signal (by simp [Call.serves])) fun _ => .bind (.now (by simp [Call.serves]))
    fun _ => .bind (.actuate (by simp [Call.serves])) fun _ =>
      .bind (.now (by simp [Call.serves])) fun _ => .pure _

theorem checkIn_logged :
    Mirrors (fun x => x.serves .checkIn) (c.checkIn P.logged) (c.checkIn P) := by
  unfold Controller.checkIn
  refine .bind (CheckIn.perform_logged P _ _) fun ⟨result, _⟩ => ?_
  rcases result with e | r
  · exact .pure _
  · exact .pure _

theorem wait_logged (d : Duration) :
    Mirrors (fun x => x.serves (.wait d)) (c.wait P.logged d) (c.wait P d) := by
  unfold Controller.wait
  refine .ite (fun _ => .pure _) fun _ => ?_
  exact .bind (.now (by simp [Call.serves])) fun _ => .bind (.sleep (by simp [Call.serves]))
    fun _ => .bind (.now (by simp [Call.serves])) fun _ => .pure _

/-- Carrying out the chosen action makes only the calls that action allows. -/
theorem act_logged :
    Mirrors (fun x => x.serves c.machine.ctx.action) (c.act P.logged) (c.act P) := by
  unfold Controller.act
  split
  · next n h => rw [h]; exact .bind (feed_logged P c n) fun _ => .pure _
  · next h => rw [h]; exact .bind (checkIn_logged P c) fun _ => .pure _
  · next d h => rw [h]; exact .bind (wait_logged P c d) fun _ => .pure _

/-- **A tick, logged.** A tick on the logged world is the tick on the bare world, and it makes
only the calls that the action its machine chose allows. -/
theorem tick_logged :
    Mirrors (fun x => x.serves c.advanceMachine.1.machine.ctx.action) (c.tick P.logged)
      (c.tick P) := by
  unfold Controller.tick
  exact .bind (act_logged P _) fun _ => .pure _

end Controller

end PetFeeder
