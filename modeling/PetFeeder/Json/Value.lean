/-!
# JSON documents

The settings file is JSON, read and written by a JSON library that is not part of this program.
The program sees the document the library reads: a `Value` that keeps strings and numbers as
written, so that the settings reader decides how strictly to take each one. It asks the library
to decode a string's escapes only when it needs the string's content, and to quote a string when
it writes settings back out.

`Json.Library` names exactly these three operations of the library. The settings reader and
writer take one as a parameter (`Config.ofText`, `Config.render`); nothing in this program
reads JSON text itself.
-/

namespace PetFeeder.Json

/-- A JSON value with strings and numbers kept as written. -/
inductive Value
  | null
  | bool (b : Bool)
  /-- A number, as its characters. -/
  | number (text : List Char)
  /-- A string, as the characters between its quotes, escapes not yet decoded. -/
  | string (raw : List Char)
  | array (items : List Value)
  /-- An object's members in the order written; keys are raw string contents. -/
  | object (members : List (List Char × Value))
deriving Inhabited

/-- What the settings reader and writer use of the JSON library. -/
structure Library where
  /-- The document a text holds, or `none` when the text is not one JSON value. -/
  parse : String → Option Value
  /-- A string's content from its raw characters, or `none` for an escape that names no
  character. -/
  decodeString : List Char → Option (List Char)
  /-- A string as JSON text, in quotes and with the escapes JSON requires. -/
  quote : String → String

/-- Whether a character is a decimal digit. -/
def isDigit (c : Char) : Bool := '0' ≤ c ∧ c ≤ '9'

end PetFeeder.Json
