import TapeMachine.Fault
import TapeMachine.Text.Blank

/-!
# Directions

The moves of a tape's head and the texts that spell them: one token per direction, with white space
and commas between them that mean nothing. A direction has a canonical token and two letters.
-/

namespace TapeMachine

/-- A move of a head. -/
inductive Direction where
  | left
  | right
  | stay
  deriving DecidableEq, Repr

namespace Direction

/-- The name of a direction. -/
def name : Direction → String
  | left => "Left"
  | right => "Right"
  | stay => "Stay"

/-- Tells whether a character stands between tokens without being one. -/
def isSeparator (c : Char) : Bool :=
  Text.isBlank c || c = ','

/-- The direction that a character spells, or the fault that it spells none. -/
def readWith (ofToken? : Char → Option Direction) (c : Char) : Except Fault Direction :=
  match ofToken? c with
  | some d => .ok d
  | none => .error (.invalidDirection c)

/-- The directions spelled by the tokens of a text, whose separators are left out. -/
def parseWith (ofToken? : Char → Option Direction) (tokens : List Char) :
    Except Fault (List Direction) :=
  (tokens.filter fun c => !isSeparator c).mapM (readWith ofToken?)

/-- The canonical token of a direction. -/
def token : Direction → Char
  | left => '<'
  | right => '>'
  | stay => '-'

/-- The direction of a token or letter. -/
def ofToken? : Char → Option Direction
  | '<' | 'L' | 'l' => some left
  | '>' | 'R' | 'r' => some right
  | '-' | 'S' | 's' => some stay
  | _ => none

/-- The directions of a text in tokens and letters. -/
def parse (tokens : String) : Except Fault (List Direction) :=
  parseWith ofToken? tokens.toList

@[simp]
theorem ofToken?_token (d : Direction) : ofToken? d.token = some d := by
  cases d <;> rfl

end Direction

end TapeMachine
