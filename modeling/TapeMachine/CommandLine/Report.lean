import TapeMachine.Snapshot

/-!
# The printed report

What the command line prints of a run: on request a record of every snapshot, and at the end the
tapes without the blanks around their contents.
-/

namespace TapeMachine.CommandLine

/-- The cells of a tape with the one under the head in brackets. -/
def tapeText (t : Tape Char) : String :=
  String.ofList (t.before.reverse ++ ['[', t.current, ']'] ++ t.after)

/-- The items of a stack from the bottom up. -/
def stackText (s : Stack Char) : String :=
  String.ofList s.items

/-- The line that follows the record of a terminal snapshot. -/
def endingText : Status → String
  | .running => ""
  | .halted => "\nMachine halted.\n"
  | .cancelled => "\nMachine cancelled.\n"
  | .failed _ => "\nMachine stopped on error.\n"

/-- The record of a snapshot. -/
def recordText (s : Snapshot String Char) : String :=
  let action := match s.action with
    | some id => toString id
    | none => "-"
  let tapes := ", ".intercalate (s.contents.tapes.map tapeText)
  let pushdowns := ", ".intercalate (s.contents.pushdowns.map stackText)
  s!"Step: {s.stepCount}, State: {s.state}, Action: {action}, "
    ++ s!"Tapes: [{tapes}], Stacks: [{pushdowns}]\n"
    ++ endingText s.status

/-- The content of a tape without the blanks at its two ends. -/
def trimmed (blank : Char) (t : Tape Char) : String :=
  String.ofList ((t.cells.dropWhile (· = blank)).reverse.dropWhile (· = blank)).reverse

/-- The final tapes, one a line. -/
def tapesText (blank : Char) (s : Snapshot String Char) : String :=
  String.join (s.contents.tapes.map fun t => trimmed blank t ++ "\n")

end TapeMachine.CommandLine
