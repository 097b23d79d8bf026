/-!
# Response statuses

The feeder tells apart four status codes, lumps every other code together as unknown, and has a
status of its own for a response that never finished its headers.
-/

namespace PetFeeder.Http

/-- What a response's status line says, as far as the feeder cares. -/
inductive Status
  /-- 200 -/
  | ok
  /-- 400 -/
  | badRequest
  /-- 500 -/
  | serverError
  /-- 503 -/
  | unavailable
  /-- Any other code, or none. -/
  | unknown
  /-- The headers never finished. -/
  | transportError
deriving DecidableEq, Repr

namespace Status

/-- The status of a three-byte code, compared byte for byte with the known codes. -/
def ofCode (code : List UInt8) : Status :=
  if code = "200".toUTF8.toList then .ok
  else if code = "400".toUTF8.toList then .badRequest
  else if code = "500".toUTF8.toList then .serverError
  else if code = "503".toUTF8.toList then .unavailable
  else .unknown

/-- How a status reads in messages. -/
def display : Status → String
  | .ok => "200 OK"
  | .badRequest => "400 Bad Request"
  | .serverError => "500 Internal Server Error"
  | .unavailable => "503 Service Unavailable"
  | .unknown => "unknown status"
  | .transportError => "transport error"

/-- The name a status is shown by. -/
def name : Status → String
  | .ok => "Ok"
  | .badRequest => "BadRequest"
  | .serverError => "ServerError"
  | .unavailable => "Unavailable"
  | .unknown => "Unknown"
  | .transportError => "TransportError"

/-- A code read off the wire is never taken for a broken transport. -/
theorem ofCode_ne_transportError (code : List UInt8) : ofCode code ≠ .transportError := by
  unfold ofCode
  split
  · simp
  · split
    · simp
    · split
      · simp
      · split <;> simp

end Status

end PetFeeder.Http
