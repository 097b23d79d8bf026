import PetFeeder.CheckIn.Request

/-!
# Writing a request

A check-in is an HTTP/1.0 `GET` whose body is the encoded report:

`GET <path> HTTP/1.0` CR LF `Host: <host>` CR LF `Content-Length: <n>` CR LF CR LF `<body>`

where `n` is the length of the body in decimal. Each literal piece, the path, the host and the
length go into the sink as one slice each; the body goes in field by field.
-/

namespace PetFeeder.Http

/-- The UTF-8 bytes of a text. -/
def utf8 (s : String) : List UInt8 := s.toUTF8.toList

/-- The header pieces in the order they are written, each one slice. -/
def requestHead (host path : String) (q : Request) : List (List UInt8) :=
  [utf8 "GET ", utf8 path, utf8 " HTTP/1.0\r\nHost: ", utf8 host, utf8 "\r\nContent-Length: ",
    utf8 (toString q.encodedLen), utf8 "\r\n\r\n"]

/-- Writes the slices in order, stopping at the first that does not fit. -/
def putSlices : List (List UInt8) → Emit Unit
  | [] => pure ()
  | s :: rest => do
    Sink.putSlice s
    putSlices rest

/-- Writes a check-in request: the header pieces, then the encoded report. -/
def writeRequest (host path : String) (q : Request) : Emit Unit := do
  putSlices (requestHead host path q)
  Wire.encode q

end PetFeeder.Http
