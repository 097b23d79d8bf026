import PetFeeder.Ports
import PetFeeder.CheckIn.Error
import PetFeeder.Http.Request
import PetFeeder.Http.Response
import PetFeeder.CheckIn.Response

/-!
# Checking in

One check-in is one round trip to the server, timed by the clock and shown on the status light:

1. *Connecting*: open a connection; if that fails, the check-in fails.
2. *Sending*: send the request; if that fails, the check-in fails.
3. *Awaiting*: read the answer byte by byte until its headers end. An answer that ends first
   is a transport failure; a status other than OK fails with that status.
4. With an OK status, read the rest of the answer as the body, close the connection, and
   (*Parsing*) decode the body as a response.

A connection that was opened is closed exactly once, whichever way the round trip ends. The
status light ends on *Success* or *Failure*, and the time reported is the clock's difference
between the start and the end of the round trip, never below zero.
-/

namespace PetFeeder.CheckIn

open Http

variable {ω : Type}

set_option linter.unusedVariables false in
/-- Feeds the answer to the parser until it knows the status, or until the answer ends and the
parser is finished: the status, the parser and the body bytes so far. -/
def awaitStatus (P : Ports ω) (p : ResponseParser) (body : Array UInt8) (w : ω) :
    (Status × ResponseParser × Array UInt8) × ω :=
  match p.status with
  | some s => ((s, p, body), w)
  | none =>
    match hread : P.readByte.run w with
    | (none, w') =>
      let (p', s) := p.finish
      ((s, p', body), w')
    | (some b, w') =>
      let (p', out) := p.step b
      awaitStatus P p' (match out with
        | some x => body.push x
        | none => body) w'
termination_by P.pending w
decreasing_by
  have := P.pending_readByte w (by rw [hread]; rfl)
  rw [hread] at this
  exact this

set_option linter.unusedVariables false in
/-- Feeds the rest of the answer to the parser: the parser and the body bytes at its end. -/
def drain (P : Ports ω) (p : ResponseParser) (body : Array UInt8) (w : ω) :
    (ResponseParser × Array UInt8) × ω :=
  match hread : P.readByte.run w with
  | (none, w') => ((p, body), w')
  | (some b, w') =>
    let (p', out) := p.step b
    drain P p' (match out with
      | some x => body.push x
      | none => body) w'
termination_by P.pending w
decreasing_by
  have := P.pending_readByte w (by rw [hread]; rfl)
  rw [hread] at this
  exact this

/-- The request's bytes, as written into an empty growable buffer; a buffer that refused them
would be an overflow. -/
def requestBytes (ep : Endpoint) (q : Request) : Except CheckInError (List UInt8) :=
  match writeRequest ep.host ep.path q Sink.growable with
  | .ok _ s => .ok s.bytes.toList
  | .error e _ => .error (CheckInError.ofBufferFull e)

/-- The round trip of a check-in, from connecting to decoding the body. -/
def roundTrip (P : Ports ω) (ep : Endpoint) (q : Request) :
    StateM ω (Except CheckInError Response) := do
  P.signal .connecting
  if !(← P.connect ep) then return .error .transport
  P.signal .sending
  match requestBytes ep q with
  | .error e =>
    P.close
    return .error e
  | .ok tx =>
    if !(← P.send tx) then
      P.close
      return .error .transport
    P.signal .awaiting
    let (status, p, body) ← fun w => awaitStatus P {} #[] w
    match status with
    | .ok =>
      let (_, body) ← fun w => drain P p body w
      P.close
      P.signal .parsing
      match (Wire.decode body.toList : Except DecodeError Response) with
      | .ok r => return .ok r
      | .error e => return .error (CheckInError.ofDecodeError e)
    | .transportError =>
      P.close
      return .error .transport
    | other =>
      P.close
      return .error (.badStatus other)

/-- A timed check-in: the result, and how long the round trip took by the clock. The status
light ends on *Success* or *Failure*. -/
def perform (P : Ports ω) (ep : Endpoint) (q : Request) :
    StateM ω (Except CheckInError Response × Duration) := do
  let started ← P.now
  let result ← roundTrip P ep q
  let finished ← P.now
  let elapsed := finished.satSub started
  match result with
  | .ok _ => P.signal .success
  | .error _ => P.signal .failure
  return (result, elapsed)

end PetFeeder.CheckIn
