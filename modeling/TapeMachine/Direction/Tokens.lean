import TapeMachine.Direction

/-!
# Direction tokens of one's own

A program may spell the three directions with characters of its choice. A choice is valid if no
token is a separator and no two are equal; then every text has at most one reading.
-/

namespace TapeMachine

/-- One character for each direction. -/
structure DirectionTokens where
  left : Char
  right : Char
  stay : Char
  deriving DecidableEq, Repr

namespace DirectionTokens

/-- The canonical tokens. -/
def canonical : DirectionTokens :=
  ⟨Direction.left.token, Direction.right.token, Direction.stay.token⟩

/-- The three tokens. -/
def all (t : DirectionTokens) : List Char :=
  [t.left, t.right, t.stay]

/-- The token of a direction. -/
def token (t : DirectionTokens) : Direction → Char
  | .left => t.left
  | .right => t.right
  | .stay => t.stay

/-- The direction of a token; of equal tokens the first counts. -/
def ofToken? (t : DirectionTokens) (c : Char) : Option Direction :=
  if c = t.left then some .left
  else if c = t.right then some .right
  else if c = t.stay then some .stay
  else none

/-- Refuses tokens that are separators, then tokens that do not differ. -/
def validate (t : DirectionTokens) : Except Fault Unit :=
  match t.all.find? Direction.isSeparator with
  | some c => .error (.invalidProgram (.separatorToken c))
  | none =>
    if t.left = t.right ∨ t.left = t.stay ∨ t.right = t.stay then
      .error (.invalidProgram (.sameTokens t.left t.right t.stay))
    else .ok ()

/-- The directions of a text in these tokens. -/
def parse (t : DirectionTokens) (tokens : String) : Except Fault (List Direction) :=
  Direction.parseWith t.ofToken? tokens.toList

end DirectionTokens

end TapeMachine
