import PetFeeder.Proofs.CheckInRun

/-!
# A check-in opens one connection and closes it once

Whatever the transport does (it may refuse the connection, refuse the request, or answer
anything), one check-in:

* connects once, to its endpoint;
* closes the connection exactly when it opened, and once; after closing it only shows
  *Parsing* (right before it decodes the body), reads the clock and shows its final phase, so
  every send and every read comes before the close;
* shows the phases of how far it got: *Connecting*, then *Sending* once connected, *Awaiting*
  once the request is taken, *Parsing* exactly when the answer's header block ended with OK,
  and last *Success* exactly when it returns a response, else *Failure*.

The statement reads all of this off the calls of the logged check-in (`perform_withTransport`).
-/

namespace PetFeeder

open Http ResponseParser CheckIn

namespace Call

/-- The endpoint a call connects to, if it is a connection attempt. -/
def endpoint? : Call → Option Endpoint
  | .connect ep => some ep
  | .now => none
  | .sleep _ => none
  | .actuate _ => none
  | .signal _ => none
  | .send _ => none
  | .readByte => none
  | .close => none

/-- The phase a call shows, if it shows one. -/
def phase? : Call → Option Phase
  | .signal p => some p
  | .now => none
  | .sleep _ => none
  | .actuate _ => none
  | .connect _ => none
  | .send _ => none
  | .readByte => none
  | .close => none

end Call

namespace CheckIn

variable (ep : Endpoint) (tx : List UInt8) (reads : Nat)

/-- A round trip connects once, to its endpoint. -/
theorem roundTripCalls_endpoints (opened accepted parsed : Bool) :
    (roundTripCalls ep tx opened accepted reads parsed).filterMap Call.endpoint? = [ep] := by
  cases opened <;> cases accepted <;>
    simp [roundTripCalls, List.filterMap_cons, List.filterMap_append, List.filterMap_replicate,
      Call.endpoint?]

/-- A round trip closes once if the connection opened, and never otherwise. -/
theorem roundTripCalls_count_close (opened accepted parsed : Bool) :
    (roundTripCalls ep tx opened accepted reads parsed).count .close =
      if opened then 1 else 0 := by
  cases opened <;> cases accepted <;> cases parsed <;>
    simp [roundTripCalls, List.count_replicate]

/-- After an opened connection closes, a round trip at most shows *Parsing*. -/
theorem roundTripCalls_close (accepted parsed : Bool) :
    ∃ before, roundTripCalls ep tx true accepted reads parsed =
      before ++ .close :: (if parsed then [.signal .parsing] else []) :=
  ⟨[.signal .connecting, .connect ep, .signal .sending, .send tx] ++
    (if accepted then .signal .awaiting :: List.replicate reads .readByte else []), by
      simp [roundTripCalls]⟩

/-- The phases of a round trip are those of how far it got. -/
theorem roundTripCalls_phases (opened accepted parsed : Bool) :
    (roundTripCalls ep tx opened accepted reads parsed).filterMap Call.phase? =
      .connecting :: if opened then
        .sending :: ((if accepted then [.awaiting] else []) ++ if parsed then [.parsing] else [])
        else [] := by
  cases opened <;> cases accepted <;> cases parsed <;>
    simp [roundTripCalls, List.filterMap_cons, List.filterMap_append, List.filterMap_replicate,
      Call.phase?]

end CheckIn

/-- **One connection, closed once.** For every clock, servo and status light and every
transport of its own: a check-in connects once, to its endpoint; it closes exactly when the
connection opened, and once, after which it only shows *Parsing* (before decoding the body),
reads the clock and shows its final phase; and the phases it shows are *Connecting*, then
*Sending* if the connection opened, *Awaiting* if the request was taken, *Parsing* exactly when
the header block of the answer ended with OK, and last *Success* exactly when the check-in
returns a response, *Failure* otherwise. -/
theorem checkIn_opens_once_and_closes_once {ω τ : Type} (P : Ports ω) (T : Transport τ)
    (ep : Endpoint) (q : Request) (w : ω) (t : τ) :
    ∃ tx, writeRequest ep.host ep.path q Sink.growable =
        .ok () { Sink.growable with bytes := tx.toArray } ∧
      let run := (perform (P.withTransport T).logged ep q).run ((w, t), [])
      let connected := (T.connect ep).run t
      let sent := (T.send tx).run connected.2
      let parsed := sent.1 ∧ (feedAll {} (T.answer sent.2)).1.status = some .ok
      let final : Phase := if run.1.1.isOk then .success else .failure
      run.2.2.filterMap Call.endpoint? = [ep] ∧
        run.2.2.count .close = (if connected.1 then 1 else 0) ∧
        (connected.1 → ∃ before, run.2.2 =
          before ++ .close :: (if parsed then [.signal .parsing] else []) ++ [.now, .signal final]) ∧
        run.2.2.filterMap Call.phase? =
          .connecting :: (if connected.1 then
            .sending :: (if sent.1 then .awaiting :: (if parsed then [.parsing] else []) else [])
            else []) ++ [final] := by
  obtain ⟨tx, hw, htx⟩ := requestBytes_eq ep q
  refine ⟨tx, hw, ?_⟩
  intro run connected sent parsed final
  have hc : (T.connect ep).run t = (connected.1, connected.2) := rfl
  have hs : (T.send tx).run connected.2 = (sent.1, sent.2) := rfl
  obtain ⟨reads, hres, hcalls⟩ := perform_withTransport P T ep q htx w t [] hc hs
  -- the final phase is read off the result
  have hfinal : (if (if connected.1 ∧ sent.1 then outcomeOf (T.answer sent.2)
      else .error .transport).isOk then Phase.success else .failure) = final := by
    rw [← hres]
  -- the round trip shows *Parsing* when it opened the connection and `parsed` holds
  have hparsed : decide (connected.1 = true ∧ sent.1 = true ∧
      (feedAll {} (T.answer sent.2)).1.finish.2 = .ok) = (connected.1 && decide parsed) := by
    simp [parsed, finish_eq_ok_iff]
  rw [hfinal, hparsed] at hcalls
  refine ⟨?_, ?_, fun hopen => ?_, ?_⟩
  · rw [hcalls]
    simp [List.filterMap_cons, roundTripCalls_endpoints, Call.endpoint?]
  · rw [hcalls]
    simp [roundTripCalls_count_close]
  · rw [hopen, Bool.true_and] at hcalls
    obtain ⟨before, hb⟩ := roundTripCalls_close ep tx reads sent.1 (decide parsed)
    refine ⟨.now :: before, ?_⟩
    rw [hcalls, hb]
    simp
  · rw [hcalls, List.nil_append, List.filterMap_append, List.filterMap_cons, roundTripCalls_phases]
    -- `parsed` is about the request being taken, so that case is split by hand
    cases connected.1
    · simp [List.filterMap_cons, Call.phase?]
    · by_cases hsent : sent.1 = true <;> simp [parsed, hsent, List.filterMap_cons, Call.phase?]

end PetFeeder
