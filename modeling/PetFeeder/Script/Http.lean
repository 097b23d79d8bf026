import PetFeeder.Bytes.Sink
import PetFeeder.Http.Response

/-!
# Scripts of response parsing

A script feeds chunks of bytes to one parser and one body sink, and ends the response when told
to. For each chunk it reports where the parser ended up, after which bytes its state changed,
and which body bytes the sink refused; feeding goes on after a refusal.
-/

namespace PetFeeder.Script

open Http

/-- One step of a parsing script. -/
inductive ParseOp
  | feed (data : List UInt8)
  | finish

/-- What feeding one chunk did. -/
structure FeedReport where
  state : ParseState
  status : Option Status
  /-- The index of each byte after which the state changed, with the new state. -/
  transitions : List (Nat × ParseState)
  /-- The index of each body byte the sink refused. -/
  refused : List Nat
  /-- Bytes in the body sink after the chunk. -/
  bodyLen : Nat

/-- The report of one script step. -/
inductive ParseStep
  | fed (r : FeedReport)
  | finished (s : Status)

/-- Feeds bytes from index `i` on, collecting state changes and refusals (newest first). -/
def feedFrom (p : ResponseParser) (sink : Sink) (i : Nat) (moves : List (Nat × ParseState))
    (refused : List Nat) : List UInt8 → ResponseParser × Sink × List (Nat × ParseState) × List Nat
  | [] => (p, sink, moves, refused)
  | b :: rest =>
    let (p', out) := p.step b
    let moves := if p'.state = p.state then moves else (i, p'.state) :: moves
    let (sink, refused) := match out with
      | none => (sink, refused)
      | some byte =>
        match sink.offer byte with
        | (s, true) => (s, refused)
        | (s, false) => (s, i :: refused)
    feedFrom p' sink (i + 1) moves refused rest

/-- Runs the steps in order on one parser and one body sink. -/
def runParse : List ParseOp → ResponseParser → Sink → List ParseStep × Sink
  | [], _, sink => ([], sink)
  | .feed data :: ops, p, sink =>
    let (p', sink', moves, refused) := feedFrom p sink 0 [] [] data
    let report : FeedReport :=
      ⟨p'.state, p'.status, moves.reverse, refused.reverse, sink'.written⟩
    let (steps, final) := runParse ops p' sink'
    (.fed report :: steps, final)
  | .finish :: ops, p, sink =>
    let (p', s) := p.finish
    let (steps, final) := runParse ops p' sink
    (.finished s :: steps, final)

end PetFeeder.Script
