import TapeMachine.Text.Quoted

/-!
# Errors of the JSON reader

What can be wrong with a JSON text, where in the text, and how it is put into words. A cause is one
of three kinds: the text ends too early, it breaks the grammar, or it is well formed and does not
describe the value that is asked for.
-/

namespace TapeMachine.Json

/-- The brackets of compound values. -/
inductive Bracket where
  | list
  | object
  deriving DecidableEq, Repr

/-- What was found where another value is expected. -/
inductive Found where
  | null
  | boolean (value : Bool)
  | integer (value : Int)
  /-- A number with a fraction or an exponent, or beyond 64 bits, with its shortest text. -/
  | floating (text : String)
  | string (value : String)
  | list
  | object
  deriving DecidableEq, Repr

/-- Why a text is refused. -/
inductive Cause where
  | endInValue
  | endInString
  | endIn (bracket : Bracket)
  | valueExpected
  | literalExpected
  | keyExpected
  | colonExpected
  | separatorExpected (bracket : Bracket)
  | trailingComma
  | trailingCharacters
  | invalidNumber
  | numberOutOfRange
  | invalidEscape
  | loneSurrogate
  | unfinishedSurrogate
  | controlCharacter
  | wrongType (found : Found) (expected : String)
  | wrongValue (found : Found) (expected : String)
  | wrongLength (length : Nat) (record : String) (fields : Nat)
  | unknownVariant (name : String) (known : List String)
  | missingField (name : String)
  | duplicateField (name : String)
  deriving DecidableEq, Repr

inductive Kind where
  /-- The text ends before the value does. -/
  | incomplete
  /-- The text breaks the grammar. -/
  | syntactic
  /-- The text is well formed and describes something else. -/
  | mismatch
  deriving DecidableEq, Repr

/-- A point of a text: a line counted from 1 and the bytes after the line's beginning. -/
structure Position where
  line : Nat
  column : Nat
  deriving DecidableEq, Repr

/-- A refusal: the cause and the point at which it was found. -/
structure Error where
  cause : Cause
  position : Position
  deriving DecidableEq, Repr

namespace Found

def describe : Found → String
  | null => "null"
  | boolean value => s!"boolean `{value}`"
  | integer value => s!"integer `{value}`"
  | floating text => s!"floating point `{text}`"
  | string value => s!"string {quoted value}"
  | list => "sequence"
  | object => "map"

end Found

namespace Cause

/-- Alternatives in words: one, two with "or", or a list of them all. -/
def alternatives (names : List String) : String :=
  match names.map fun name => s!"`{name}`" with
  | [a] => a
  | [a, b] => s!"{a} or {b}"
  | all => "one of " ++ ", ".intercalate all

def describe : Cause → String
  | endInValue => "EOF while parsing a value"
  | endInString => "EOF while parsing a string"
  | endIn .list => "EOF while parsing a list"
  | endIn .object => "EOF while parsing an object"
  | valueExpected => "expected value"
  | literalExpected => "expected ident"
  | keyExpected => "key must be a string"
  | colonExpected => "expected `:`"
  | separatorExpected .list => "expected `,` or `]`"
  | separatorExpected .object => "expected `,` or `\x7d`"
  | trailingComma => "trailing comma"
  | trailingCharacters => "trailing characters"
  | invalidNumber => "invalid number"
  | numberOutOfRange => "number out of range"
  | invalidEscape => "invalid escape"
  | loneSurrogate => "lone leading surrogate in hex escape"
  | unfinishedSurrogate => "unexpected end of hex escape"
  | controlCharacter => "control character (\\u0000-\\u001F) found while parsing a string"
  | wrongType found expected => s!"invalid type: {found.describe}, expected {expected}"
  | wrongValue found expected => s!"invalid value: {found.describe}, expected {expected}"
  | wrongLength length record fields =>
    s!"invalid length {length}, expected struct {record} with {fields} elements"
  | unknownVariant name known => s!"unknown variant `{name}`, expected {alternatives known}"
  | missingField name => s!"missing field `{name}`"
  | duplicateField name => s!"duplicate field `{name}`"

def kind : Cause → Kind
  | endInValue | endInString | endIn _ => .incomplete
  | wrongType .. | wrongValue .. | wrongLength .. | unknownVariant .. | missingField _
  | duplicateField _ => .mismatch
  | _ => .syntactic

end Cause

def Error.message (e : Error) : String :=
  s!"{e.cause.describe} at line {e.position.line} column {e.position.column}"

end TapeMachine.Json
