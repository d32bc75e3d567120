import TapeMachine.Json.Error

/-!
# Failures while reading

A reader consumes characters from the front of a text, and a failure says what was left when it
gave up. The point that is reported follows from the text as a whole: it lies where the rest
begins, or a few bytes further when the offending bytes are counted in, but never past the end.
-/

namespace TapeMachine.Json

/-- A cause, the unread rest of the text, and how many bytes of the rest are counted in. -/
structure Failure where
  cause : Cause
  rest : List Char
  ahead : Nat
  deriving DecidableEq, Repr

/-- The length of a text in bytes of its UTF-8 encoding. -/
def byteCount (cs : List Char) : Nat :=
  cs.foldl (fun n c => n + c.utf8Size) 0

namespace Position

/-- The beginning of a text. -/
def first : Position := ⟨1, 0⟩

/-- The point `bytes` bytes further in the text `cs`, or its end if that comes first. Part of a
character may be passed. -/
def advance (p : Position) : (bytes : Nat) → (cs : List Char) → Position
  | 0, _ => p
  | _, [] => p
  | bytes + 1, c :: cs =>
    if bytes + 1 < c.utf8Size then ⟨p.line, p.column + bytes + 1⟩
    else
      advance (if c = '\n' then ⟨p.line + 1, 0⟩ else ⟨p.line, p.column + c.utf8Size⟩)
        (bytes + 1 - c.utf8Size) cs

end Position

/-- The refusal of `text` that a failure stands for. -/
def Failure.locate (text : List Char) (f : Failure) : Error where
  cause := f.cause
  position := Position.first.advance (byteCount text - byteCount f.rest + f.ahead) text

end TapeMachine.Json
