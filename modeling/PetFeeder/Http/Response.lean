import PetFeeder.Http.Status

/-!
# Reading a response, one byte at a time

The parser looks only at what it must: the three bytes after the first space of the status
line, and where the header block ends. Everything after the blank line that ends the headers
is body, passed on untouched.

- In the status line, the first space starts the code. The next three bytes are the code,
  taken verbatim, whatever they are.
- Outside the code, a counter tracks a line ending in progress: a carriage return at an even
  count or a line feed at an odd count adds one, any other byte resets it. At two the status
  line is over; at four the headers are, and the status is read off the code.
- `finish` ends the response: the status, or `transportError` when the headers never ended.

Main statements: `step_body` (in the body every byte is passed on unchanged), `step_done`
(after `finish` bytes are ignored) and `finish_status`.
-/

namespace PetFeeder.Http

/-- Where the parser is in a response. -/
inductive ParseState
  /-- In the status line, before the first space. -/
  | version
  /-- In the status code, with `captured` of its three bytes taken. -/
  | code (captured : Nat)
  /-- In the status line, after the code. -/
  | reason
  | headers
  | body
  /-- Finished; further bytes are ignored. -/
  | done
deriving DecidableEq, Repr

namespace ParseState

/-- The name a state is shown by. -/
def name : ParseState → String
  | .version => "Version"
  | .code n => "Code" ++ toString n
  | .reason => "Reason"
  | .headers => "Headers"
  | .body => "Body"
  | .done => "Done"

/-- Whether the state is inside the status line. -/
def inStatusLine : ParseState → Bool
  | .version | .code _ | .reason => true
  | _ => false

end ParseState

/-- A response parser: its state, the line-end counter, the code bytes taken so far and the
status once the headers are complete. -/
structure ResponseParser where
  state : ParseState := .version
  lineEnd : Nat := 0
  code : List UInt8 := []
  status : Option Status := none
deriving DecidableEq, Repr

namespace ResponseParser

/-- The next value of the line-end counter after `b`. -/
def nextLineEnd (count : Nat) (b : UInt8) : Nat :=
  if b = 13 ∧ count % 2 = 0 then count + 1
  else if b = 10 ∧ count % 2 = 1 then count + 1
  else 0

/-- One byte of the status line (outside the code) or of the headers. -/
def headerByte (p : ResponseParser) (b : UInt8) : ResponseParser :=
  let count := nextLineEnd p.lineEnd b
  let p := { p with lineEnd := count }
  if 4 ≤ count then { p with status := some (Status.ofCode p.code), state := .body }
  else if count = 2 then
    if p.state.inStatusLine then { p with state := .headers } else p
  else if b = 32 ∧ p.state = .version then { p with state := .code 0 }
  else p

/-- One byte of the code; after the third the status line goes on to the reason. -/
def capture (p : ResponseParser) (captured : Nat) (b : UInt8) : ResponseParser :=
  { p with code := p.code ++ [b], state := if captured + 1 = 3 then .reason else .code (captured + 1) }

/-- Reads one byte: the parser afterwards, and the byte itself when it belongs to the body. -/
def step (p : ResponseParser) (b : UInt8) : ResponseParser × Option UInt8 :=
  match p.state with
  | .done => (p, none)
  | .body => (p, some b)
  | .code captured => (p.capture captured b, none)
  | _ => (p.headerByte b, none)

/-- Ends the response: the parser is done, and the status is the one the headers gave, or
`transportError` when they never ended. -/
def finish (p : ResponseParser) : ResponseParser × Status :=
  ({ p with state := .done }, p.status.getD .transportError)

/-! ## Laws -/

theorem step_body (p : ResponseParser) (h : p.state = .body) (b : UInt8) :
    p.step b = (p, some b) := by
  simp [step, h]

theorem step_done (p : ResponseParser) (h : p.state = .done) (b : UInt8) :
    p.step b = (p, none) := by
  simp [step, h]

theorem finish_status (p : ResponseParser) : (p.finish).2 = p.status.getD .transportError := rfl

end ResponseParser

end PetFeeder.Http
