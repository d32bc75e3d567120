import TapeMachine.Machine.Build
import TapeMachine.Program.Basic

/-!
# From programs to machines

A program is checked as a whole first: its marks, its direction tokens, its alphabet. Then the
machine is built in the order in which the program lists its parts, and initialized. The first fault
on this way is the one reported.
-/

namespace TapeMachine.Program

/-- The directions of a text, in the program's own tokens or in the usual ones. -/
def parseDirections (p : Program) (tokens : String) : Except Fault (List Direction) :=
  match p.directionTokens with
  | some own => own.parse tokens
  | none => Direction.parse tokens

/-- The rule that an action's text stands for. -/
def rule (p : Program) (a : ActionText) : Except Fault (Rule String Char) := do
  let directions ← p.parseDirections a.directions
  return {
    key := ⟨a.state, a.read.toList, a.pop.toList⟩
    write := a.write.toList
    push := a.push.toList
    directions := directions
    next := a.next }

/-- All texts that consist of symbols, in the order in which they are checked. -/
def symbolTexts (p : Program) : List String :=
  p.tapes ++ p.pushdowns ++ p.actions.flatMap fun a => [a.read, a.pop, a.write, a.push]

/-- Tells whether a program with an alphabet may use a symbol. -/
def allows (p : Program) (alphabet : String) (c : Char) : Bool :=
  alphabet.toList.contains c || c = p.blank || c = p.noWrite

/-- The first symbol outside the alphabet. -/
def foreignSymbol? (p : Program) : Option Char :=
  match p.alphabet with
  | none => none
  | some alphabet => (p.symbolTexts.flatMap String.toList).find? fun c => !p.allows alphabet c

/-- Checks the marks, the direction tokens and the alphabet. -/
def validate (p : Program) : Except Fault Unit := do
  if p.blank = p.noWrite then throw (.invalidProgram (.sameMarks p.blank))
  match p.directionTokens with
  | some own => own.validate
  | none => pure ()
  match p.foreignSymbol? with
  | some c => throw (.invalidProgram (.foreignSymbol c))
  | none => pure ()

/-- Adds the action of a text to a machine. -/
def addAction (p : Program) (m : Machine String Char) (a : ActionText) :
    Except Fault (Machine String Char) := do
  let rule ← p.rule a
  demand (m.addAction rule)

/-- The initialized machine that the program describes, with the actions gone through as listed. -/
def buildThrough (listing : Listing String Char) (p : Program) :
    Except Fault (Machine String Char) := do
  p.validate
  let m ← p.tapes.foldlM (fun m text => demand (m.addTape text.toList)) (Machine.new p.config)
  let m ← p.pushdowns.foldlM (fun m text => demand (m.addStack text.toList)) m
  let m ← p.actions.foldlM p.addAction m
  demand (m.initThrough listing)

/-- The initialized machine that the program describes. -/
def build (p : Program) : Except Fault (Machine String Char) :=
  p.buildThrough .latestFirst

end TapeMachine.Program
