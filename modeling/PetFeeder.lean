import PetFeeder.Bench
import PetFeeder.Bytes.Sink
import PetFeeder.CheckIn.Client
import PetFeeder.CheckIn.Error
import PetFeeder.CheckIn.Request
import PetFeeder.CheckIn.Response
import PetFeeder.Config
import PetFeeder.Controller
import PetFeeder.Duration
import PetFeeder.Http.Request
import PetFeeder.Http.Response
import PetFeeder.Http.Status
import PetFeeder.Json.Value
import PetFeeder.Led
import PetFeeder.Log
import PetFeeder.Machine
import PetFeeder.Ports
import PetFeeder.Pwm
import PetFeeder.Schedule.Basic
import PetFeeder.Schedule.Countdown
import PetFeeder.Script.CheckIn
import PetFeeder.Script.Controller
import PetFeeder.Script.Http
import PetFeeder.Script.Schedule
import PetFeeder.Script.Wire
import PetFeeder.Servo
import PetFeeder.Wire.Key
import PetFeeder.Wire.Message
import PetFeeder.Wire.Reader
import PetFeeder.Wire.Varint
import PetFeeder.Wire.Writer
import PetFeeder.Proofs.FeedingDiscipline
import PetFeeder.Proofs.VarintSpans
import PetFeeder.Proofs.FieldGrammar
import PetFeeder.Proofs.DecodeGrammar
import PetFeeder.Proofs.CheckInDecode
import PetFeeder.Proofs.RoundTrip
import PetFeeder.Proofs.LineEnds
import PetFeeder.Proofs.ResponsePhases
import PetFeeder.Proofs.HeaderBlock
import PetFeeder.Proofs.ScheduleInvariant
import PetFeeder.Proofs.WaitProgress
import PetFeeder.Proofs.AnswerLoops
import PetFeeder.Proofs.CheckInRun
import PetFeeder.Proofs.ConnectionDiscipline
import PetFeeder.Proofs.Deadlines
import PetFeeder.Proofs.ExpiryOrder
import PetFeeder.Proofs.MachineRuns
import PetFeeder.Proofs.AdoptedPlan
import PetFeeder.Proofs.FeedingAge
import PetFeeder.Proofs.BoundedWrites
import PetFeeder.Proofs.RequestBytes
import PetFeeder.Proofs.FieldStream
import PetFeeder.Proofs.FieldSizes
import PetFeeder.Proofs.ServoStrokes
import PetFeeder.Proofs.VarintReads
import PetFeeder.Proofs.SkipReads
