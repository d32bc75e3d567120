import TapeMachine.CommandLine.Options
import TapeMachine.CommandLine.Report
import TapeMachine.Files.Load
import TapeMachine.Program.Build
import TapeMachine.Session.Handle

/-!
# The command line

Loads a program, runs its machine in a session until the worker ends, and prints the report. Exit
code 0 stands for a run that came to its end, 1 for one that failed or could not begin, 2 for
arguments that are refused.
-/

namespace TapeMachine.CommandLine

/-- What a command leaves behind. -/
structure Outcome where
  code : Nat
  output : String
  /-- What the report itself says on standard error. The lines of the log go there too and are left
  out: how many there are depends on `Options.verbose`. -/
  errors : String
  deriving DecidableEq, Repr

/-- The outcome of arguments that are refused; the text of the usage is left out. Requests for help and
for the version are refused here like every argument that is not understood, though they would
be met and come to exit code 0. -/
def refusal : Outcome :=
  ⟨2, "", ""⟩

/-- The outcome of a fault before the run. -/
def failure (f : Fault) : Outcome :=
  ⟨1, "", s!"Error: {f.message}\n"⟩

/-- The program to run: the loaded one with the inputs and the mode that the options ask for. -/
def selectProgram (o : Options) (loaded : Except Fault Program) : Except Fault Program := do
  let p ← demand ((← loaded).setTapes o.inputs)
  return if o.atomic then { p with mode := .atomic } else p

section

variable (listing : Listing String Char)

/-- A session that has started to run a program. -/
def beginSession (o : Options) (p : Program) : Except Fault (Session String Char) := do
  let session ← Session.new (← p.buildThrough listing) o.speed
  match session.start (fun _ _ => none) .granted with
  | (session, .ok _) => return session
  | (_, .error f) => throw f

/-- The blank and the started session of what a command line asks for. -/
def prepare (o : Options) (loaded : Except Fault Program) :
    Except Fault (Char × Session String Char) := do
  let p ← selectProgram o loaded
  return (p.blank, ← beginSession listing o p)

end

/-- The records of snapshots, if they are asked for. -/
def records (o : Options) (shown : List (Snapshot String Char)) : String :=
  if o.debug then String.join (shown.map recordText) else ""

/-- The end of the report after the last snapshot, and the exit code with it. -/
def closing (o : Options) (blank : Char) (last : Snapshot String Char) : Outcome :=
  let title := if o.debug then "\nFinal tapes:\n" else ""
  let output := title ++ tapesText blank last
  match last.status with
  | .failed f => ⟨1, output, s!"\nMachine error: {f.message}\n"⟩
  | _ => ⟨0, output, ""⟩

/-- What is left to report of a session whose worker has ended, after the records. -/
def ending (o : Options) (blank : Char) (s : Session String Char) : Outcome :=
  match s.request .join, s.delivered.back? with
  | (_, some (.error f)), _ => failure f
  | _, none => ⟨1, "", ""⟩
  | _, some last => closing o blank last

/-- The outcome of a session whose worker has ended. -/
def conclude (o : Options) (blank : Char) (s : Session String Char) : Outcome :=
  let rest := ending o blank s
  { rest with output := records o s.delivered.toList ++ rest.output }

/-- The outcome of running a loaded program; nothing if the worker takes `fuel` steps or more. -/
def execute (listing : Listing String Char) (fuel : Nat) (o : Options)
    (loaded : Except Fault Program) : Option Outcome :=
  match prepare listing o loaded with
  | .error f => some (failure f)
  | .ok (blank, s) => (s.settle fuel).map (conclude o blank)

/-- The outcome of a command line in the directory at the top of a tree. The listing is the order in
which the actions are gone through when the machine is initialized. -/
def run (listing : Listing String Char) (fuel : Nat) (top : Files.Entry)
    (arguments : List String) : Option Outcome :=
  match Options.ofArguments? arguments with
  | none => some refusal
  | some o => execute listing fuel o (Files.loadProgram top o.program)

end TapeMachine.CommandLine
