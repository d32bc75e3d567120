import TapeMachine.Main
import TapeMachine.Program.Write
import TapeMachine.Proofs.Machine.Textbook
import TapeMachine.Proofs.Session.Ownership
import TapeMachine.Proofs.Session.Stream
import TapeMachine.Proofs.Machine.Limits
import TapeMachine.Proofs.Machine.Modes
import TapeMachine.Proofs.Machine.Failure
import TapeMachine.Proofs.Machine.Depth
import TapeMachine.Proofs.Table.Entries
import TapeMachine.Proofs.Program.Building
import TapeMachine.Proofs.Program.WellFormed
import TapeMachine.Proofs.Table.Nested
import TapeMachine.Proofs.Json.Grammar
import TapeMachine.Proofs.Json.Strings
import TapeMachine.Proofs.Json.Numbers
import TapeMachine.Proofs.Json.Passing
import TapeMachine.Proofs.Json.Values
import TapeMachine.Proofs.Json.Records
import TapeMachine.Proofs.Program.Format
import TapeMachine.Proofs.Json.Written
import TapeMachine.Proofs.Program.RoundTrip
import TapeMachine.Proofs.Session.Interruption
import TapeMachine.Proofs.Session.Waiting
import TapeMachine.Proofs.Session.Observers
import TapeMachine.Proofs.Session.Panics
import TapeMachine.Proofs.Program.Cycles
import TapeMachine.Proofs.Machine.Symbols
import TapeMachine.Proofs.Program.Alphabet
import TapeMachine.Proofs.Machine.Extension
import TapeMachine.Proofs.Program.Precedence
import TapeMachine.Proofs.Session.Unattended
import TapeMachine.Proofs.Tape.Trimmed
import TapeMachine.Proofs.CommandLine.Outcome
import TapeMachine.Proofs.Machine.Padding
import TapeMachine.Proofs.Program.Padding
import TapeMachine.Proofs.CommandLine.Padding
import TapeMachine.Proofs.Machine.Reset
import TapeMachine.Proofs.Tape.History
import TapeMachine.Proofs.Machine.Refusal
import TapeMachine.Proofs.Session.Refusal
import TapeMachine.Proofs.Direction.Reading
import TapeMachine.Proofs.Files.Paths
import TapeMachine.Proofs.Program.Inputs
import TapeMachine.Proofs.Machine.Rearrangement
import TapeMachine.Proofs.Machine.Diagnosis
