import PetFeeder.Controller

/-!
# The event log

Every event becomes one log line with a level. Durations are written in whole milliseconds,
rounded down; a check-in failure is a warning, everything else is information.
-/

namespace PetFeeder

/-- How serious a log line is. -/
inductive Level
  | info
  | warn
deriving DecidableEq, Repr

namespace Level

/-- The name a level is shown by. -/
def name : Level → String
  | .info => "INFO"
  | .warn => "WARN"

end Level

namespace Event

/-- A duration as whole milliseconds. -/
def millisText (d : Duration) : String := toString d.millis

/-- The log line of an event. -/
def logLine : Event → Level × String
  | .started s => (.info, "START | initial_state=" ++ s.name)
  | .stateChanged a b => (.info, "STATE | " ++ a.name ++ " -> " ++ b.name)
  | .fed n => (.info, "FEED | dispensed " ++ toString n ++ " scoop(s)")
  | .checkInSucceeded s =>
    (.info, "CHECKIN | ok rtt=" ++ millisText s.roundTrip ++ "ms | next_checkin=" ++
      millisText s.nextCheckin ++ "ms next_feed=" ++
      (match s.nextFeed with
        | some d => millisText d ++ "ms"
        | none => "none") ++
      " scoops=" ++ toString s.scoops ++ " ack=" ++ (if s.feedingAcknowledged then "true" else "false"))
  | .checkInFailed e d => (.warn, "CHECKIN | failed: " ++ e.message ++ " | retry in " ++ millisText d ++ "ms")

end Event

end PetFeeder
