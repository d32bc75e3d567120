import TapeMachine.Json.Write
import TapeMachine.Program.Basic

/-!
# Writing programs

The compact JSON text of a program and of its parts, with the fields in declared order. An alphabet
or direction tokens that are left out are not written.
-/

namespace TapeMachine

open Json

/-- A character as a string of its own. -/
def writeCharacter (c : Char) : List Char :=
  writeString (String.singleton c)

/-- A direction's name as a JSON string. -/
def Direction.toJson (d : Direction) : List Char :=
  writeString d.name

/-- A mode's name as a JSON string. -/
def Mode.toJson (m : Mode) : List Char :=
  writeString m.name

/-- An action's number in decimal. -/
def ActionId.toJson (id : ActionId) : List Char :=
  Nat.toDigits 10 id.index

/-- The tokens as an object. -/
def DirectionTokens.toJson (t : DirectionTokens) : List Char :=
  writeObject [
    ("left", writeCharacter t.left),
    ("right", writeCharacter t.right),
    ("stay", writeCharacter t.stay)]

/-- An action's text as an object. -/
def ActionText.toJson (a : ActionText) : List Char :=
  writeObject [
    ("state", writeString a.state),
    ("read", writeString a.read),
    ("pop", writeString a.pop),
    ("write", writeString a.write),
    ("push", writeString a.push),
    ("directions", writeString a.directions),
    ("next_state", writeString a.next)]

namespace Program

/-- A member that is written only if it has a value. -/
def optionalMember {α : Type} (name : String) (write : α → List Char) (value : Option α) :
    List (String × List Char) :=
  value.toList.map fun v => (name, write v)

/-- A program as an object. -/
def toJson (p : Program) : List Char :=
  writeObject <|
    [("name", writeString p.name),
     ("mode", p.mode.toJson),
     ("initial_state", writeString p.initial),
     ("halt_state", writeString p.halt),
     ("blank", writeCharacter p.blank),
     ("nowrite", writeCharacter p.noWrite)]
    ++ optionalMember "alphabet" writeString p.alphabet
    ++ optionalMember "direction_tokens" DirectionTokens.toJson p.directionTokens
    ++ [("tapes", writeList (p.tapes.map writeString)),
        ("stacks", writeList (p.pushdowns.map writeString)),
        ("actions", writeList (p.actions.map ActionText.toJson))]

/-- The compact JSON text of a program. -/
def toText (p : Program) : String :=
  String.ofList p.toJson

end Program

end TapeMachine
