import TapeMachine.Text.Extending
import TapeMachine.Text.Hidden

/-!
# Quoted text

The form in which states and symbols appear in messages. A character stands between single quotes
and a text between double ones; an integer is written in decimal. Inside the quotes every character
that could not be read off the page is escaped: the delimiter and the backslash, the control
characters with a letter of their own, and, as `\u` with the hexadecimal code point in braces, the
characters that have no shape or only change the one before them.
-/

namespace TapeMachine.Text

/-- A code point in hexadecimal, written `\u` with braces around the digits. -/
def codePointEscape (c : Char) : List Char :=
  ['\\', 'u', '\x7b'] ++ Nat.toDigits 16 c.toNat ++ ['\x7d']

/-- One character inside a quotation that ends at `delimiter`. -/
def escapeIn (delimiter c : Char) : List Char :=
  if c = '\x00' then ['\\', '0']
  else if c = '\t' then ['\\', 't']
  else if c = '\r' then ['\\', 'r']
  else if c = '\n' then ['\\', 'n']
  else if c = '\\' ∨ c = delimiter then ['\\', c]
  else if isExtending c ∨ isHidden c then codePointEscape c
  else [c]

/-- A quotation: the delimiter, the escaped characters, the delimiter. -/
def quoteIn (delimiter : Char) (cs : List Char) : List Char :=
  delimiter :: cs.flatMap (escapeIn delimiter) ++ [delimiter]

end TapeMachine.Text

namespace TapeMachine

/-- Values with a quoted form, as messages show states and symbols. -/
class Quoted (α : Type) where
  /-- The text of a value in a message. -/
  quoted : α → String

export Quoted (quoted)

instance : Quoted Char where
  quoted c := String.ofList (Text.quoteIn '\'' [c])

instance : Quoted String where
  quoted s := String.ofList (Text.quoteIn '"' s.toList)

instance : Quoted Int where
  quoted n := toString n

/-- Quoted values with a comma between each and the next. -/
def quotedTuple {α : Type} [Quoted α] (xs : List α) : String :=
  ",".intercalate (xs.map quoted)

end TapeMachine
