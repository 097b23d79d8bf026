import PetFeeder.Proofs.Observed
import PetFeeder.Proofs.ResponsePhases

/-!
# Reading an answer in two phases is reading it in one

The check-in client reads the server's answer in two loops: `awaitStatus` feeds bytes to the
parser until it knows the status (or the answer ends and the parser is finished), and `drain`
feeds the rest as body. This module shows that the two loops together do what feeding the whole
answer to a fresh parser in one pass does (`ResponseParser.feedAll`):

* `Ports.Delivers R w s w'` says that the transport, from world `w`, delivers the bytes `s`
  one read at a time and then reports the end, leaving `w'`;
* `drain_delivers`: draining reads all of `s` and collects exactly the body a one-pass parse of
  `s` passes on;
* `awaitStatus_delivers`: waiting for the status yields the status a one-pass parse finishes
  with, and when that status is known, draining afterwards ends where the one-pass parse ends.

In the firmware the transport is an object of its own, owned by the check-in client, while the
clock, the servo and the status light are handed in apart from it. `Ports.withTransport P T`
assembles such ports: the transport `T` keeps a state of its own that no other port touches, and
it delivers `Transport.answer T t` from state `t` (`delivers_answer`).
-/

namespace PetFeeder

open Http

/-! ## A transport of its own -/

/-- A byte transport with a state of its own: it opens connections, sends bytes, delivers an
answer one byte at a time and closes. As with every transport of `Ports`, each delivered byte
brings the end of the answer nearer. -/
structure Transport (τ : Type) where
  connect : Endpoint → StateM τ Bool
  send : List UInt8 → StateM τ Bool
  readByte : StateM τ (Option UInt8)
  close : StateM τ Unit
  /-- How many bytes the transport may still deliver. -/
  pending : τ → Nat
  pending_readByte : ∀ t, (readByte.run t).1.isSome → pending (readByte.run t).2 < pending t

namespace Transport

variable {τ : Type} (T : Transport τ)

theorem pending_lt {t t' : τ} {b : UInt8} (hr : T.readByte.run t = (some b, t')) :
    T.pending t' < T.pending t := by
  have := T.pending_readByte t (by simp [hr])
  simpa [hr] using this

set_option linter.unusedVariables false in
/-- The bytes the transport delivers from `t` before it reports the end of the answer. -/
def answer (t : τ) : List UInt8 :=
  match hread : T.readByte.run t with
  | (none, _) => []
  | (some b, t') => b :: answer t'
termination_by T.pending t
decreasing_by exact T.pending_lt hread

theorem answer_end {t t' : τ} (hr : T.readByte.run t = (none, t')) : T.answer t = [] := by
  rw [answer.eq_def]
  split
  · rfl
  · next heq => rw [hr] at heq; cases heq

theorem answer_byte {t t' : τ} {b : UInt8} (hr : T.readByte.run t = (some b, t')) :
    T.answer t = b :: T.answer t' := by
  rw [answer.eq_def]
  split
  · next heq => rw [hr] at heq; cases heq
  · next heq => rw [hr] at heq; cases heq; rfl

end Transport

namespace Ports

variable {ω τ α : Type}

/-- Runs a computation on the first part of a pair of states. -/
def onFirst (x : StateM ω α) : StateM (ω × τ) α := fun v =>
  let r := x.run v.1
  (r.1, (r.2, v.2))

/-- Runs a computation on the second part of a pair of states. -/
def onSecond (x : StateM τ α) : StateM (ω × τ) α := fun v =>
  let r := x.run v.2
  (r.1, (v.1, r.2))

/-- The clock, servo and status light of `P`, with `T` as the transport. -/
def withTransport (P : Ports ω) (T : Transport τ) : Ports (ω × τ) where
  now := onFirst P.now
  sleep d := onFirst (P.sleep d)
  actuate n := onFirst (P.actuate n)
  signal p := onFirst (P.signal p)
  connect ep := onSecond (T.connect ep)
  send bs := onSecond (T.send bs)
  readByte := onSecond T.readByte
  close := onSecond T.close
  pending v := T.pending v.2
  pending_readByte v h := T.pending_readByte v.2 h

/-- A read of the assembled ports reads the transport and leaves the other ports' world. -/
theorem withTransport_readByte (P : Ports ω) (T : Transport τ) (w : ω) (t : τ) :
    ((P.withTransport T).readByte).run (w, t) = ((T.readByte.run t).1, (w, (T.readByte.run t).2)) :=
  rfl

/-- From world `w` the transport delivers the bytes `s`, one per read, and then reports the end
of the answer, leaving the world `w'`. -/
inductive Delivers (R : Ports ω) : ω → List UInt8 → ω → Prop
  | last {w w' : ω} : R.readByte.run w = (none, w') → Delivers R w [] w'
  | byte {w w₁ w' : ω} {b : UInt8} {s : List UInt8} :
      R.readByte.run w = (some b, w₁) → Delivers R w₁ s w' → Delivers R w (b :: s) w'

/-- **A transport of its own delivers its answer**, whatever the other ports' world holds, and
leaves that world as it was. -/
theorem delivers_answer (P : Ports ω) (T : Transport τ) (w : ω) (t : τ) :
    ∃ t', (P.withTransport T).Delivers (w, t) (T.answer t) (w, t') := by
  induction t using (measure T.pending).wf.induction with
  | h t ih =>
  rcases hr : T.readByte.run t with ⟨_ | b, t₁⟩
  · rw [T.answer_end hr]
    exact ⟨t₁, .last (by rw [withTransport_readByte, hr])⟩
  · rw [T.answer_byte hr]
    obtain ⟨t', h'⟩ := ih t₁ (T.pending_lt hr)
    exact ⟨t', .byte (by rw [withTransport_readByte, hr]) h'⟩

end Ports

/-! ## The two answer loops -/

namespace Http.ResponseParser

/-- A parser that knows the status is reading the body: the status is set only when the
headers end, and nothing after that changes it. -/
def KnowsInBody (p : ResponseParser) : Prop := p.status.isSome → p.state = .body

theorem knowsInBody_fresh : KnowsInBody {} := fun h => nomatch h

/-- A step keeps the status, or starts the body. -/
theorem step_status_or_body (p : ResponseParser) (b : UInt8) :
    (p.step b).1.status = p.status ∨ (p.step b).1.state = .body := by
  unfold ResponseParser.step
  split
  · exact .inl rfl
  · exact .inl rfl
  · exact .inl rfl
  · unfold headerByte
    dsimp only
    split
    · exact .inr rfl
    · split
      · split <;> exact .inl rfl
      · split <;> exact .inl rfl

theorem KnowsInBody.step {p : ResponseParser} (hp : p.KnowsInBody) (b : UInt8) :
    (p.step b).1.KnowsInBody := by
  intro hs
  rcases step_status_or_body p b with h | h
  · have hb := hp (h ▸ hs)
    rw [step_body p hb b]
    exact hb
  · exact h

/-- A parser finishes with OK exactly when it read a header block whose status is OK. -/
theorem finish_eq_ok_iff (p : ResponseParser) : p.finish.2 = .ok ↔ p.status = some .ok := by
  rw [finish_status]
  cases p.status <;> simp

/-- The finished status of a parser that knows it is the one it knows. -/
theorem feedAll_finish_of_known {p : ResponseParser} (hp : p.KnowsInBody) {st : Status}
    (hs : p.status = some st) (s : List UInt8) : (feedAll p s).1.finish.2 = st := by
  rw [feedAll_body (hp (by simp [hs])) s, finish_status, hs]
  rfl

end Http.ResponseParser

namespace CheckIn

open ResponseParser

variable {ω : Type} (R : Ports ω)

/-- **Draining reads the whole answer**, and collects the body a one-pass parse passes on. -/
theorem drain_delivers {w w' : ω} {s : List UInt8} (h : R.Delivers w s w') (p : ResponseParser)
    (body : Array UInt8) :
    drain R p body w = (((feedAll p s).1, body ++ (feedAll p s).2.toArray), w') := by
  induction h generalizing p body with
  | last hr => rw [drain_end R p body _ hr]; simp
  | @byte w w₁ w' b s hr _ ih =>
    rw [drain_byte R p body _ hr, ih]
    cases hout : (p.step b).2 <;> simp [feedAll, hout]

/-- **Waiting for the status agrees with the one-pass parse.** It yields the status the one-pass
parse of the whole answer finishes with; and when that status is known, draining after the wait
reads the rest and ends with the parser and body of the one-pass parse. The induction follows
the answer byte by byte; once the status is known the wait reads nothing more, and the rest of
the answer is body. -/
theorem awaitStatus_delivers {w w' : ω} {s : List UInt8} (h : R.Delivers w s w')
    (p : ResponseParser) (hp : p.KnowsInBody) (body : Array UInt8) :
    let r := awaitStatus R p body w
    r.1.1 = (feedAll p s).1.finish.2 ∧
      ((feedAll p s).1.status.isSome →
        drain R r.1.2.1 r.1.2.2 r.2 = (((feedAll p s).1, body ++ (feedAll p s).2.toArray), w')) := by
  cases hs : p.status with
  | some st =>
    -- known already: the wait reads nothing, and the drain reads all of `s`
    rw [awaitStatus_known R p body w hs]
    exact ⟨(feedAll_finish_of_known hp hs s).symm, fun _ => drain_delivers R h p body⟩
  | none =>
    induction h generalizing p body with
    | last hr =>
      rw [awaitStatus_end R p body _ hs hr]
      refine ⟨rfl, fun hk => ?_⟩
      simp [hs] at hk
    | @byte w w₁ w' b s hr hrest ih =>
      rw [awaitStatus_byte R p body _ hs hr]
      cases hs' : (p.step b).1.status with
      | none =>
        obtain ⟨h1, h2⟩ := ih (p.step b).1 (hp.step b) _ hs'
        refine ⟨h1, fun hk => ?_⟩
        rw [h2 hk]
        cases hout : (p.step b).2 <;> simp [feedAll, hout]
      | some st =>
        rw [awaitStatus_known R _ _ _ hs']
        refine ⟨(feedAll_finish_of_known (hp.step b) hs' s).symm, fun _ => ?_⟩
        rw [drain_delivers R hrest]
        cases hout : (p.step b).2 <;> simp [feedAll, hout]

end CheckIn

end PetFeeder
