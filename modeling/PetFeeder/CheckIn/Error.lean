import PetFeeder.Http.Status
import PetFeeder.Wire.Key
import PetFeeder.Bytes.Sink

/-!
# Check-in failures

A check-in fails in one of four ways: the transport let it down, the server answered with a
status other than OK, the body did not decode, or a buffer overflowed.
-/

namespace PetFeeder

/-- Why a check-in failed. -/
inductive CheckInError
  /-- The connection was refused, the request could not be sent, or the answer ended before
  its headers did. -/
  | transport
  /-- The server answered with a status other than OK. -/
  | badStatus (s : Http.Status)
  /-- The status was OK but the body did not decode. -/
  | malformedBody (e : DecodeError)
  /-- The request or the answer did not fit its buffer. -/
  | bufferOverflow
deriving DecidableEq, Repr

namespace CheckInError

/-- The text each failure reports. -/
def message : CheckInError → String
  | .transport => "transport failure"
  | .badStatus s => "bad HTTP status: " ++ s.display
  | .malformedBody e => "malformed body: " ++ e.message
  | .bufferOverflow => "I/O buffer overflow"

/-- A decoding failure is a malformed body. -/
def ofDecodeError (e : DecodeError) : CheckInError := .malformedBody e

/-- A full buffer is an overflow. -/
def ofBufferFull (_ : BufferFull) : CheckInError := .bufferOverflow

end CheckInError

end PetFeeder
