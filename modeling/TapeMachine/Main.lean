import TapeMachine.CommandLine.Run

/-!
# The program

The command line on a real file system. The records are printed while the machine runs, and the
worker's delays are slept; all else is decided in `TapeMachine.CommandLine`.
-/

namespace TapeMachine.CommandLine

/-- The trouble that an error of the system stands for. -/
def troubleOf : IO.Error → Files.Trouble
  | .noFileOrDirectory .. => .notFound
  | .inappropriateType _ code _ => if code = 21 then .isDirectory else .notDirectory
  | e => .other (toString e)

/-- The program in a file. -/
def loadFile (path : String) : IO (Except Fault Program) := do
  match ← (IO.FS.readBinFile path).toBaseIO with
  | .ok bytes => return Files.programOf path (.ok bytes)
  | .error e => return Files.programOf path (.error (troubleOf e))

/-- Follows the worker to its end, printing the records of what it shows. -/
partial def follow (o : Options) (s : Session String Char) : IO (Session String Char) := do
  match s.delay? with
  | some nanoseconds => IO.sleep (nanoseconds / 1000000).toUInt32
  | none => pure ()
  match s.advance with
  | none => return s
  | some next =>
    IO.print (records o (next.delivered.extract s.delivered.size next.delivered.size).toList)
    follow o next

/-- Prints the end of an outcome and gives its exit code. -/
def finish (outcome : Outcome) : IO UInt32 := do
  IO.print outcome.output
  IO.eprint outcome.errors
  return outcome.code.toUInt32

end TapeMachine.CommandLine

open TapeMachine.CommandLine in
/-- Runs the command line. -/
def main (arguments : List String) : IO UInt32 := do
  match Options.ofArguments? arguments with
  | none => finish refusal
  | some o =>
    match prepare .latestFirst o (← loadFile o.program) with
    | .error f => finish (failure f)
    | .ok (blank, s) => finish (ending o blank (← follow o s))
