/-!
# Compact JSON

Values written without white space. In strings only the quote, the backslash and the control
characters are escaped; five of the latter have a letter of their own.
-/

namespace TapeMachine.Json

/-- A character inside a string: itself, or an escape. -/
def writeChar (c : Char) : List Char :=
  match c with
  | '"' => ['\\', '"']
  | '\\' => ['\\', '\\']
  | '\x08' => ['\\', 'b']
  | '\x0c' => ['\\', 'f']
  | '\n' => ['\\', 'n']
  | '\r' => ['\\', 'r']
  | '\t' => ['\\', 't']
  | c =>
    if c.toNat < 0x20 then
      ['\\', 'u', '0', '0', Nat.digitChar (c.toNat / 16), Nat.digitChar (c.toNat % 16)]
    else [c]

/-- A string between quotes. -/
def writeString (s : String) : List Char :=
  '"' :: s.toList.flatMap writeChar ++ ['"']

/-- Written values with a comma between each and the next. -/
def separated (items : List (List Char)) : List Char :=
  [','].intercalate items

/-- A list of written values. -/
def writeList (items : List (List Char)) : List Char :=
  '[' :: separated items ++ [']']

/-- An object of names with written values. -/
def writeObject (members : List (String × List Char)) : List Char :=
  '\x7b' :: separated (members.map fun m => writeString m.1 ++ ':' :: m.2) ++ ['\x7d']

end TapeMachine.Json
