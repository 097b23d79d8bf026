import PetFeeder.Proofs.AnswerLoops
import PetFeeder.Proofs.RoundTrip

/-!
# A check-in over a transport of its own

With the transport kept apart from the other ports (`Ports.withTransport`), a check-in is
determined by three things the transport does: whether it opens the connection, whether it
accepts the request, and the answer it then delivers. This module computes the whole check-in
from them, calls and result:

* the request is the bytes `writeRequest` puts into an empty growable sink
  (`requestBytes_eq`), and it is sent once, on an open connection;
* the calls are those of `roundTripCalls`, framed by two clock readings and the final phase
  (`perform_withTransport`);
* the result is the *one-pass outcome* of the answer (`outcomeOf`): the status a fresh parser
  finishes with after the whole answer, and for OK the decoding of all the body it passed on.

Main statement: `checkIn_follows_one_pass_parse`.
-/

namespace PetFeeder

open Http ResponseParser

namespace CheckIn

/-- What an answer `s` comes to when it is parsed in one pass: a fresh parser fed all of `s`
and finished gives a status; a broken transport fails the check-in, any status but OK fails it
with that status and without decoding, and OK decodes the whole body the parser passed on. -/
def outcomeOf (s : List UInt8) : Except CheckInError Response :=
  match (feedAll {} s).1.finish.2 with
  | .ok =>
    match (Wire.decode (feedAll {} s).2 : Except DecodeError Response) with
    | .ok r => .ok r
    | .error e => .error (.malformedBody e)
  | .transportError => .error .transport
  | st => .error (.badStatus st)

/-! ## The request -/

theorem appends_putSlice (bs : List UInt8) : Appends (Sink.putSlice bs) bs := by
  intro s hs
  unfold Sink.putSlice
  split
  · exact Sink.putEach_growable bs s hs
  · rw [if_pos (Sink.fits_growable_capacity s hs _)]

theorem appends_putSlices (xs : List (List UInt8)) : Appends (putSlices xs) xs.flatten := by
  induction xs with
  | nil => exact Appends.pure
  | cons x xs ih => exact (appends_putSlice x).bind ih

/-- The bytes of a request: the header pieces, then the encoded report. -/
theorem appends_writeRequest (host path : String) (q : Request) :
    Appends (writeRequest host path q) ((requestHead host path q).flatten ++ Wire.joinFields q.fields) :=
  (appends_putSlices _).bind (Request.encode_appends q)

/-- Writing a request into an empty growable sink succeeds, and the request sent is what it
holds. -/
theorem requestBytes_eq (ep : Endpoint) (q : Request) :
    ∃ tx, writeRequest ep.host ep.path q Sink.growable =
        .ok () { Sink.growable with bytes := tx.toArray } ∧ requestBytes ep q = .ok tx := by
  have hw := appends_writeRequest ep.host ep.path q Sink.growable rfl
  refine ⟨(requestHead ep.host ep.path q).flatten ++ Wire.joinFields q.fields,
    hw.trans (by simp [Sink.growable]), ?_⟩
  unfold requestBytes
  rw [hw]
  simp [Sink.growable]

/-! ## Running on a transport of its own, logged -/

section Logged

variable {ω τ α β : Type} (P : Ports ω) (T : Transport τ) (v : ω × τ) (log : List Call)

theorem run_bind_eq {σ : Type} (x : StateM σ α) (f : α → StateM σ β) (s : σ) :
    (x >>= f).run s = (f (x.run s).1).run (x.run s).2 := rfl

theorem run_pure_eq {σ : Type} (a : α) (s : σ) : (pure a : StateM σ α).run s = (a, s) := rfl

theorem awaitStatus_run {σ : Type} (R : Ports σ) (p : ResponseParser) (body : Array UInt8)
    (u : σ) : StateT.run (m := Id) (fun w => awaitStatus R p body w) u = awaitStatus R p body u :=
  rfl

theorem drain_run {σ : Type} (R : Ports σ) (p : ResponseParser) (body : Array UInt8) (u : σ) :
    StateT.run (m := Id) (fun w => drain R p body w) u = drain R p body u := rfl

theorem logged_now :
    ((P.withTransport T).logged.now).run (v, log) =
      ((P.now.run v.1).1, ((P.now.run v.1).2, v.2), log ++ [.now]) := rfl

theorem logged_signal (ph : Phase) :
    ((P.withTransport T).logged.signal ph).run (v, log) =
      ((), (((P.signal ph).run v.1).2, v.2), log ++ [.signal ph]) := rfl

theorem logged_connect (ep : Endpoint) :
    ((P.withTransport T).logged.connect ep).run (v, log) =
      (((T.connect ep).run v.2).1, (v.1, ((T.connect ep).run v.2).2), log ++ [.connect ep]) := rfl

theorem logged_send (bs : List UInt8) :
    ((P.withTransport T).logged.send bs).run (v, log) =
      (((T.send bs).run v.2).1, (v.1, ((T.send bs).run v.2).2), log ++ [.send bs]) := rfl

theorem logged_close :
    ((P.withTransport T).logged.close).run (v, log) =
      ((), (v.1, (T.close.run v.2).2), log ++ [.close]) := rfl

/-- **The answer loops, logged.** Waiting for the status reads the answer some number of times
and yields the status of the one-pass parse; when that status is known, draining reads the
answer some more times and ends with the one-pass parser and body, the other ports' world as it
was. -/
theorem logged_answer_loops (w : ω) (t : τ) :
    let s := T.answer t
    let A := awaitStatus (P.withTransport T).logged {} #[] ((w, t), log)
    ∃ reads, A.1.1 = (feedAll {} s).1.finish.2 ∧ A.2.2 = log ++ List.replicate reads .readByte ∧
      ((feedAll {} s).1.status.isSome → ∃ reads' t',
        drain (P.withTransport T).logged A.1.2.1 A.1.2.2 A.2 =
          (((feedAll {} s).1, #[] ++ (feedAll {} s).2.toArray), (w, t'),
            A.2.2 ++ List.replicate reads' .readByte)) := by
  intro s A
  obtain ⟨calls, hcalls, heq⟩ := Mirrors.awaitStatus (P.withTransport T) {} #[] (w, t) log
  obtain ⟨t', hdel⟩ := Ports.delivers_answer P T w t
  obtain ⟨hst, hdrain⟩ := awaitStatus_delivers _ hdel {} knowsInBody_fresh #[]
  simp only [awaitStatus_run] at heq
  have hA : A = ((awaitStatus (P.withTransport T) {} #[] (w, t)).1,
      (awaitStatus (P.withTransport T) {} #[] (w, t)).2, log ++ calls) := heq
  refine ⟨calls.length, by rw [hA, hst], by rw [hA, ← List.eq_replicate_iff.2 ⟨rfl, hcalls⟩],
    fun hknown => ?_⟩
  obtain ⟨calls', hcalls', heq'⟩ :=
    Mirrors.drain (P.withTransport T) A.1.2.1 A.1.2.2 A.2.1 A.2.2
  simp only [drain_run] at heq'
  refine ⟨calls'.length, t', ?_⟩
  rw [← List.eq_replicate_iff.2 ⟨rfl, hcalls'⟩]
  refine heq'.trans ?_
  rw [hA]
  dsimp only
  rw [hdrain hknown]

end Logged

/-- The calls of a round trip, by how far it got: show *Connecting* and connect; on an open
connection show *Sending* and send the request; if it is accepted show *Awaiting* and read the
answer `reads` times; then close the connection, and show *Parsing* when the answer's status
was OK. -/
def roundTripCalls (ep : Endpoint) (tx : List UInt8) (opened accepted : Bool) (reads : Nat)
    (parsed : Bool) : List Call :=
  [.signal .connecting, .connect ep] ++
    if opened then
      [.signal .sending, .send tx] ++
        (if accepted then .signal .awaiting :: List.replicate reads .readByte else []) ++
        .close :: (if parsed then [.signal .parsing] else [])
    else []

section RoundTrip

variable {ω τ : Type} (P : Ports ω) (T : Transport τ) (ep : Endpoint) (q : Request)
  {tx : List UInt8}

/-- **The round trip on a transport of its own.** A refused connection ends the round trip at
once and a refused request closes the connection; both fail on the transport. Otherwise the
answer is read until its status is known and, for OK, to its end; the connection is closed and
the result is the one-pass outcome of the whole answer. -/
theorem roundTrip_withTransport (htx : requestBytes ep q = .ok tx) (w : ω) (t : τ)
    (log : List Call) {opened accepted : Bool} {t₁ t₂ : τ}
    (hc : (T.connect ep).run t = (opened, t₁)) (hs : (T.send tx).run t₁ = (accepted, t₂)) :
    ∃ reads, ((roundTrip (P.withTransport T).logged ep q).run ((w, t), log)).1 =
        (if opened ∧ accepted then outcomeOf (T.answer t₂) else .error .transport) ∧
      ((roundTrip (P.withTransport T).logged ep q).run ((w, t), log)).2.2 =
        log ++ roundTripCalls ep tx opened accepted reads
          (opened ∧ accepted ∧ (feedAll {} (T.answer t₂)).1.finish.2 = .ok) := by
  unfold roundTrip
  rw [run_bind_eq, logged_signal, run_bind_eq, logged_connect]
  dsimp only
  rw [hc]
  dsimp only
  cases opened
  · -- refused: nothing more is done
    refine ⟨0, rfl, ?_⟩
    show log ++ [_] ++ [_] = _
    simp [roundTripCalls]
  rw [Bool.not_true, if_neg Bool.false_ne_true, run_bind_eq, logged_signal, htx]
  dsimp only
  rw [run_bind_eq, logged_send]
  dsimp only
  rw [hs]
  dsimp only
  cases accepted
  · -- the request was not taken: the connection is closed
    rw [Bool.not_false, if_pos rfl, run_bind_eq, logged_close]
    refine ⟨0, rfl, ?_⟩
    show log ++ [_] ++ [_] ++ [_] ++ [_] ++ [_] = _
    simp [roundTripCalls]
  rw [Bool.not_true, if_neg Bool.false_ne_true, run_bind_eq, logged_signal, run_bind_eq]
  dsimp only
  simp only [awaitStatus_run]
  generalize hL : log ++ [Call.signal Phase.connecting] ++ [Call.connect ep] ++
    [Call.signal Phase.sending] ++ [Call.send tx] ++ [Call.signal Phase.awaiting] = L
  obtain ⟨reads, hst, hcalls, hdrain⟩ := logged_answer_loops P T L
    ((P.signal .awaiting).run ((P.signal .sending).run ((P.signal .connecting).run w).2).2).2 t₂
  generalize awaitStatus (P.withTransport T).logged {} #[]
    ((((P.signal .awaiting).run ((P.signal .sending).run ((P.signal .connecting).run w).2).2).2,
      t₂), L) = A at hst hcalls hdrain ⊢
  rw [hst]
  cases hfin : (feedAll {} (T.answer t₂)).1.finish.2
  case ok =>
    -- the status is OK: the rest of the answer is read, and the body decoded
    have hknown : (feedAll {} (T.answer t₂)).1.status.isSome := by
      rw [(finish_eq_ok_iff _).1 hfin]
      rfl
    obtain ⟨reads', t', hd⟩ := hdrain hknown
    dsimp only
    rw [run_bind_eq]
    simp only [drain_run]
    rw [hd]
    dsimp only
    rw [run_bind_eq, logged_close, run_bind_eq, logged_signal]
    dsimp only
    simp only [List.append_toArray, List.nil_append]
    refine ⟨reads + reads', ?_, ?_⟩
    · rw [if_pos (by simp)]
      unfold outcomeOf
      rw [hfin]
      cases (Wire.decode (feedAll {} (T.answer t₂)).2 : Except DecodeError Response) <;> rfl
    · rw [hcalls, ← hL]
      cases (Wire.decode (feedAll {} (T.answer t₂)).2 : Except DecodeError Response) <;>
      · dsimp only
        rw [run_pure_eq]
        simp [roundTripCalls]
  -- any other status fails without reading further
  all_goals
    dsimp only
    rw [run_bind_eq, logged_close]
    refine ⟨reads, ?_, ?_⟩
    · unfold outcomeOf
      rw [hfin]
      rfl
    · rw [run_pure_eq, hcalls, ← hL]
      simp [roundTripCalls]

/-- **A timed check-in on a transport of its own.** The round trip is framed by two clock
readings, and the status light ends on *Success* exactly when the result is a response. -/
theorem perform_withTransport (htx : requestBytes ep q = .ok tx) (w : ω) (t : τ)
    (log : List Call) {opened accepted : Bool} {t₁ t₂ : τ}
    (hc : (T.connect ep).run t = (opened, t₁)) (hs : (T.send tx).run t₁ = (accepted, t₂)) :
    let result := if opened ∧ accepted then outcomeOf (T.answer t₂) else .error .transport
    ∃ reads, ((perform (P.withTransport T).logged ep q).run ((w, t), log)).1.1 = result ∧
      ((perform (P.withTransport T).logged ep q).run ((w, t), log)).2.2 =
        log ++ .now :: roundTripCalls ep tx opened accepted reads
          (opened ∧ accepted ∧ (feedAll {} (T.answer t₂)).1.finish.2 = .ok) ++
          [.now, .signal (if result.isOk then .success else .failure)] := by
  intro result
  obtain ⟨reads, hres, hcalls⟩ :=
    roundTrip_withTransport P T ep q htx (P.now.run w).2 t (log ++ [.now]) hc hs
  unfold perform
  rw [run_bind_eq, logged_now, run_bind_eq]
  dsimp only
  generalize (roundTrip (P.withTransport T).logged ep q).run (((P.now.run w).2, t), log ++ [.now])
    = R at hres hcalls ⊢
  obtain ⟨res, v, calls⟩ := R
  dsimp only at hres hcalls ⊢
  rw [run_bind_eq, logged_now]
  dsimp only
  have hres' : res = result := hres
  rw [← hres']
  refine ⟨reads, by cases res <;> rfl, ?_⟩
  cases res <;>
  · dsimp only
    rw [run_bind_eq, logged_signal, run_pure_eq]
    simp [hcalls, Except.isOk, Except.toBool]

end RoundTrip

end CheckIn

namespace Call

/-- The bytes a call sends, if it is a send. -/
def sent? : Call → Option (List UInt8)
  | .send bs => some bs
  | .now | .sleep _ | .actuate _ | .signal _ | .connect _ | .readByte | .close => none

end Call

/-- A round trip sends its request once if the connection opened, and nothing otherwise. -/
theorem CheckIn.roundTripCalls_sent (ep : Endpoint) (tx : List UInt8) (opened accepted : Bool)
    (reads : Nat) (parsed : Bool) :
    (CheckIn.roundTripCalls ep tx opened accepted reads parsed).filterMap Call.sent? =
      if opened then [tx] else [] := by
  cases opened <;> cases accepted <;> cases parsed <;>
    simp [CheckIn.roundTripCalls, List.filterMap_cons, List.filterMap_append,
      List.filterMap_replicate, Call.sent?]

open CheckIn in
/-- **A check-in is a one-pass parse of its answer.** Whatever the clock, the servo and the
status light do, and for every transport of its own: the request is exactly what `writeRequest`
puts into an empty growable sink, and it is sent once if the connection opens; a refused
connection or a refused request fails the check-in on the transport; and otherwise the result
is the one-pass outcome of the answer the transport delivers after the request: a broken
transport or any status but OK as a fresh parser finishes the whole answer, and for OK the
decoding of the whole body it passed on. -/
theorem checkIn_follows_one_pass_parse {ω τ : Type} (P : Ports ω) (T : Transport τ)
    (ep : Endpoint) (q : Request) (w : ω) (t : τ) :
    ∃ tx, writeRequest ep.host ep.path q Sink.growable =
        .ok () { Sink.growable with bytes := tx.toArray } ∧
      let connected := (T.connect ep).run t
      let sent := (T.send tx).run connected.2
      ((perform (P.withTransport T).logged ep q).run ((w, t), [])).2.2.filterMap Call.sent? =
          (if connected.1 then [tx] else []) ∧
        ((perform (P.withTransport T) ep q).run (w, t)).1.1 =
          if connected.1 ∧ sent.1 then outcomeOf (T.answer sent.2) else .error .transport := by
  obtain ⟨tx, hw, htx⟩ := requestBytes_eq ep q
  refine ⟨tx, hw, ?_⟩
  intro connected sent
  have hc : (T.connect ep).run t = (connected.1, connected.2) := rfl
  have hs : (T.send tx).run connected.2 = (sent.1, sent.2) := rfl
  obtain ⟨reads, hres, hcalls⟩ := perform_withTransport P T ep q htx w t [] hc hs
  -- logging the calls changes nothing the check-in returns
  obtain ⟨_, -, hlog⟩ := perform_logged (P.withTransport T) ep q (w, t) []
  rw [hlog] at hres
  refine ⟨?_, hres⟩
  rw [hcalls, List.nil_append, List.filterMap_append, List.filterMap_cons, roundTripCalls_sent]
  simp [List.filterMap_cons, Call.sent?]

end PetFeeder
