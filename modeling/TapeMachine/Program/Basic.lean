import TapeMachine.Direction.Tokens
import TapeMachine.Machine.Basic

/-!
# Programs

A program describes a machine whose states are texts and whose symbols are characters. Contents and
the parts of an action are written as texts with one character per symbol, stacks from the bottom
up, moves in direction tokens.
-/

namespace TapeMachine

/-- An action as a program spells it. -/
structure ActionText where
  state : String
  /-- One character per tape. -/
  read : String
  /-- One character per stack. -/
  pop : String := ""
  /-- One character per tape. -/
  write : String
  /-- One character per stack. -/
  push : String := ""
  /-- One direction token per tape. -/
  directions : String
  next : String
  deriving DecidableEq, Repr

/-- The description of a machine. -/
structure Program where
  name : String := ""
  mode : Mode := .consume
  initial : String
  halt : String := "halt"
  /-- Fills the cells a tape grows by, and is what an empty stack yields. -/
  blank : Char := '_'
  /-- Writing or pushing this symbol changes nothing. -/
  noWrite : Char := '*'
  /-- The symbols in use besides the two marks; all symbols if it is left out. -/
  alphabet : Option String := none
  /-- What directions are spelled with, if not in the usual tokens and letters. -/
  directionTokens : Option DirectionTokens := none
  tapes : List String
  pushdowns : List String := []
  actions : List ActionText
  deriving DecidableEq, Repr

namespace Program

def config (p : Program) : Config String Char :=
  ⟨p.initial, p.halt, ⟨p.blank, p.noWrite⟩, p.mode⟩

/-- The program after a call that replaces the contents of the first tapes by the inputs, and what the
call answers. -/
def setTapes (p : Program) (inputs : List String) : Program × Except Fault Unit :=
  if p.tapes.length < inputs.length then
    (p, .error (.invalidProgram (.tooManyInputs inputs.length p.tapes.length)))
  else ({ p with tapes := inputs ++ p.tapes.drop inputs.length }, .ok ())

end Program

end TapeMachine
