import PetFeeder.Duration
import PetFeeder.Json.Value

/-!
# Settings

The feeder's settings: where the server is, how many scoops a feeding takes at least, how long
to wait before retrying a failed check-in, the I/O timeout, the servo's motion profile and the
Wi-Fi credentials.

Settings are read from JSON through a JSON library, passed in as a `Json.Library`: it gives the
document a text holds and decodes the strings the reader needs. Every field may be left out and
then keeps its default. An object names fields by key: unknown keys are passed over, a known key
given twice is refused.
An array gives the fields in their declared order; missing trailing fields keep their
defaults, and extra items are refused. Counts are unsigned integers written with digits only,
within their width; texts are limited in UTF-8 bytes; only the timeout may be `null`.

Read settings are then checked (`Config.check`), in a fixed order, for values the feeder cannot
work with.
-/

namespace PetFeeder

open Json

/-- How the servo moves a scoop. -/
structure ServoProfile where
  /-- PWM frequency in hertz. -/
  pwmFrequencyHz : Nat := 400
  /-- Duty, out of 255, that extends the arm fully. -/
  extendDuty : Nat := 115
  /-- Duty, out of 255, for the partial extension of a jiggle. -/
  jiggleExtendDuty : Nat := 190
  /-- Duty, out of 255, that retracts the arm. -/
  retractDuty : Nat := 211
  /-- Settle time after a full move, in milliseconds. -/
  moveDelayMs : Nat := 1500
  /-- Settle time after a jiggle move, in milliseconds. -/
  jiggleDelayMs : Nat := 100
  /-- Jiggles before each scoop. -/
  jigglesPerScoop : Nat := 3
deriving DecidableEq, Repr

/-- The feeder's settings. -/
structure Config where
  backendHost : String := "catfeeder.local"
  backendPort : Nat := 80
  backendPath : String := "/photon"
  minScoopsPerFeeding : Nat := 1
  checkinRetryBackoffMs : Nat := 30000
  ioTimeoutMs : Option Nat := some 30000
  servo : ServoProfile := {}
  wifiSsid : String := ""
  wifiPassword : String := ""
deriving DecidableEq, Repr

/-- What makes read settings unusable. -/
inductive ConfigProblem
  | hostEmpty
  | portZero
  | pathNotRooted
  | noScoops
  | noBackoff
  | zeroTimeout
  | zeroSettleDelay
  | zeroPwmFrequency
deriving DecidableEq, Repr

/-- Why settings could not be had. -/
inductive ConfigError
  /-- The text is not JSON of the settings' shape. -/
  | parse
  /-- The settings were read but are unusable. -/
  | invalid (p : ConfigProblem)
deriving DecidableEq, Repr

namespace ConfigProblem

/-- The reason each problem gives. -/
def message : ConfigProblem → String
  | .hostEmpty => "backend_host is empty"
  | .portZero => "backend_port must be non-zero"
  | .pathNotRooted => "backend_path must start with '/'"
  | .noScoops => "min_scoops_per_feeding must be >= 1"
  | .noBackoff => "checkin_retry_backoff_ms must be non-zero"
  | .zeroTimeout => "io_timeout_ms must be non-zero or null"
  | .zeroSettleDelay => "servo settle delays must be non-zero"
  | .zeroPwmFrequency => "servo pwm_frequency_hz must be non-zero"

end ConfigProblem

namespace ConfigError

/-- The text each error reports. -/
def message : ConfigError → String
  | .parse => "config parse error"
  | .invalid p => "validation failed: " ++ p.message

end ConfigError

/-! ## Reading fields -/

namespace Json.Value

/-- An unsigned integer below `2 ^ bits`, written with digits only. -/
def toUnsigned (bits : Nat) : Value → Option Nat
  | .number text =>
    if text.all isDigit then
      let n := text.foldl (fun acc c => acc * 10 + (c.toNat - '0'.toNat)) 0
      if n < Nat.pow 2 bits then some n else none
    else none
  | _ => none

/-- A string of at most `limit` UTF-8 bytes, its escapes decoded by the library `J`. -/
def toText (J : Library) (limit : Nat) : Value → Option String
  | .string raw =>
    match J.decodeString raw with
    | some cs =>
      let s := String.ofList cs
      if s.utf8ByteSize ≤ limit then some s else none
    | none => none
  | _ => none

/-- An unsigned integer that may also be `null`. -/
def toOptUnsigned (bits : Nat) : Value → Option (Option Nat)
  | .null => some none
  | v => (v.toUnsigned bits).map some

end Json.Value

/-- Reads an object's members into a record, field by field. Each member's key is decoded by
the library `J`; `set` takes a key, its value and the record so far, and answers `none` to
refuse, or whether the key was a known field and the record after it. A known key seen twice is
refused. -/
def readMembers {α : Type} (J : Library) (set : String → Value → α → Option (Bool × α)) :
    List (List Char × Value) → List String → α → Option α
  | [], _, a => some a
  | (rawKey, v) :: rest, seen, a => do
    let key ← J.decodeString rawKey
    let key := String.ofList key
    let (known, a') ← set key v a
    if known then
      if seen.contains key then none else readMembers J set rest (key :: seen) a'
    else readMembers J set rest seen a'

/-- Reads an array's items into a record in field order; `set i v a` reads item `i`, and
answers `none` for an item past the last field. -/
def readItems {α : Type} (set : Nat → Value → α → Option α) : Nat → List Value → α → Option α
  | _, [], a => some a
  | i, v :: rest, a => do
    let a' ← set i v a
    readItems set (i + 1) rest a'

namespace ServoProfile

/-- Sets one field by name: `none` for a bad value, `false` for an unknown name. -/
def setNamed (key : String) (v : Value) (p : ServoProfile) : Option (Bool × ServoProfile) :=
  match key with
  | "pwm_frequency_hz" => (v.toUnsigned 32).map fun n => (true, { p with pwmFrequencyHz := n })
  | "extend_duty" => (v.toUnsigned 8).map fun n => (true, { p with extendDuty := n })
  | "jiggle_extend_duty" => (v.toUnsigned 8).map fun n => (true, { p with jiggleExtendDuty := n })
  | "retract_duty" => (v.toUnsigned 8).map fun n => (true, { p with retractDuty := n })
  | "move_delay_ms" => (v.toUnsigned 32).map fun n => (true, { p with moveDelayMs := n })
  | "jiggle_delay_ms" => (v.toUnsigned 32).map fun n => (true, { p with jiggleDelayMs := n })
  | "jiggles_per_scoop" => (v.toUnsigned 8).map fun n => (true, { p with jigglesPerScoop := n })
  | _ => some (false, p)

/-- The field names in declared order. -/
def fieldNames : List String :=
  ["pwm_frequency_hz", "extend_duty", "jiggle_extend_duty", "retract_duty", "move_delay_ms",
    "jiggle_delay_ms", "jiggles_per_scoop"]

/-- Sets the field at a position in declared order. -/
def setAt (i : Nat) (v : Value) (p : ServoProfile) : Option ServoProfile :=
  match fieldNames[i]? with
  | some name => (setNamed name v p).map (·.2)
  | none => none

/-- Reads a profile from an object or an array; fields left out keep their defaults. -/
def ofValue (J : Library) : Value → Option ServoProfile
  | .object ms => readMembers J setNamed ms [] {}
  | .array xs => readItems setAt 0 xs {}
  | _ => none

/-- The profile as compact JSON text, fields in declared order. -/
def render (p : ServoProfile) : String :=
  "\x7b\"pwm_frequency_hz\":" ++ toString p.pwmFrequencyHz ++
    ",\"extend_duty\":" ++ toString p.extendDuty ++
    ",\"jiggle_extend_duty\":" ++ toString p.jiggleExtendDuty ++
    ",\"retract_duty\":" ++ toString p.retractDuty ++
    ",\"move_delay_ms\":" ++ toString p.moveDelayMs ++
    ",\"jiggle_delay_ms\":" ++ toString p.jiggleDelayMs ++
    ",\"jiggles_per_scoop\":" ++ toString p.jigglesPerScoop ++ "\x7d"

end ServoProfile

namespace Config

/-- Sets one field by name: `none` for a bad value, `false` for an unknown name. -/
def setNamed (J : Library) (key : String) (v : Value) (c : Config) : Option (Bool × Config) :=
  match key with
  | "backend_host" => (v.toText J 64).map fun s => (true, { c with backendHost := s })
  | "backend_port" => (v.toUnsigned 16).map fun n => (true, { c with backendPort := n })
  | "backend_path" => (v.toText J 96).map fun s => (true, { c with backendPath := s })
  | "min_scoops_per_feeding" =>
    (v.toUnsigned 32).map fun n => (true, { c with minScoopsPerFeeding := n })
  | "checkin_retry_backoff_ms" =>
    (v.toUnsigned 32).map fun n => (true, { c with checkinRetryBackoffMs := n })
  | "io_timeout_ms" => (v.toOptUnsigned 32).map fun n => (true, { c with ioTimeoutMs := n })
  | "servo" => (ServoProfile.ofValue J v).map fun p => (true, { c with servo := p })
  | "wifi_ssid" => (v.toText J 32).map fun s => (true, { c with wifiSsid := s })
  | "wifi_password" => (v.toText J 64).map fun s => (true, { c with wifiPassword := s })
  | _ => some (false, c)

/-- The field names in declared order. -/
def fieldNames : List String :=
  ["backend_host", "backend_port", "backend_path", "min_scoops_per_feeding",
    "checkin_retry_backoff_ms", "io_timeout_ms", "servo", "wifi_ssid", "wifi_password"]

/-- Sets the field at a position in declared order. -/
def setAt (J : Library) (i : Nat) (v : Value) (c : Config) : Option Config :=
  match fieldNames[i]? with
  | some name => (setNamed J name v c).map (·.2)
  | none => none

/-- Reads settings from an object or an array; fields left out keep their defaults. -/
def ofValue (J : Library) : Value → Option Config
  | .object ms => readMembers J (setNamed J) ms [] {}
  | .array xs => readItems (setAt J) 0 xs {}
  | _ => none

/-- The first problem that makes settings unusable, in the order they are checked. -/
def check (c : Config) : Option ConfigProblem :=
  if c.backendHost.isEmpty then some .hostEmpty
  else if c.backendPort = 0 then some .portZero
  else if !c.backendPath.startsWith "/" then some .pathNotRooted
  else if c.minScoopsPerFeeding = 0 then some .noScoops
  else if c.checkinRetryBackoffMs = 0 then some .noBackoff
  else if c.ioTimeoutMs = some 0 then some .zeroTimeout
  else if c.servo.moveDelayMs = 0 ∨ c.servo.jiggleDelayMs = 0 then some .zeroSettleDelay
  else if c.servo.pwmFrequencyHz = 0 then some .zeroPwmFrequency
  else none

/-- Reads and checks settings from JSON text, read by the library `J`. -/
def ofText (J : Library) (text : String) : Except ConfigError Config :=
  match (J.parse text).bind (ofValue J) with
  | none => .error .parse
  | some c =>
    match c.check with
    | some p => .error (.invalid p)
    | none => .ok c

/-- How long to wait before retrying a failed check-in. -/
def retryBackoff (c : Config) : Duration := Duration.ofMillis c.checkinRetryBackoffMs

/-- The I/O timeout, if any. -/
def ioTimeout (c : Config) : Option Duration := c.ioTimeoutMs.map Duration.ofMillis

/-! ## Writing settings -/

/-- The settings as compact JSON text, fields in declared order, strings quoted by the
library `J`. -/
def render (J : Library) (c : Config) : String :=
  "\x7b\"backend_host\":" ++ J.quote c.backendHost ++
    ",\"backend_port\":" ++ toString c.backendPort ++
    ",\"backend_path\":" ++ J.quote c.backendPath ++
    ",\"min_scoops_per_feeding\":" ++ toString c.minScoopsPerFeeding ++
    ",\"checkin_retry_backoff_ms\":" ++ toString c.checkinRetryBackoffMs ++
    ",\"io_timeout_ms\":" ++ (match c.ioTimeoutMs with
      | some n => toString n
      | none => "null") ++
    ",\"servo\":" ++ c.servo.render ++
    ",\"wifi_ssid\":" ++ J.quote c.wifiSsid ++
    ",\"wifi_password\":" ++ J.quote c.wifiPassword ++ "\x7d"

/-- Whether writing settings and reading them back through the library `J` gives the same
settings. -/
def roundTrips (J : Library) (c : Config) : Bool :=
  match ofText J (c.render J) with
  | .ok c' => decide (c' = c)
  | .error _ => false

end Config

end PetFeeder
