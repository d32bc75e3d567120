import Mathlib.Data.List.Basic
import TapeMachine.Json.Scan

/-!
# The grammar of JSON

Which texts are JSON, and which values they spell, without a word on how a text is read. White space may
stand between any two tokens, a character of a string may be spelled in several ways, and a string spells
Unicode characters only: half a surrogate pair is no spelling of any. A number is kept as it is written.

The relation between values and texts is `Spells`; `Document` adds the white space around a whole text.
-/

namespace TapeMachine.Json

/-- A JSON value, apart from how its strings and its layout are written. -/
inductive Value where
  | null
  | boolean (value : Bool)
  | number (written : List Char)
  | text (value : String)
  | list (items : List Value)
  | object (members : List (String × Value))

/-! ## White space, numbers and strings -/

/-- The characters that may stand between tokens. -/
def spaces : List Char :=
  [' ', '\n', '\t', '\r']

/-- The characters that may follow a value. -/
def delimiters : List Char :=
  spaces ++ [',', ']', '\x7d']

/-- White space, which may be none. -/
def Blank (s : List Char) : Prop :=
  ∀ c ∈ s, c ∈ spaces

/-- Decimal digits, at least one. -/
def Digits (s : List Char) : Prop :=
  s ≠ [] ∧ ∀ c ∈ s, '0' ≤ c ∧ c ≤ '9'

/-- The digits before the point: a zero stands alone or not in front. -/
def Integral (s : List Char) : Prop :=
  s = ['0'] ∨ (Digits s ∧ s.head? ≠ some '0')

def Fraction (s : List Char) : Prop :=
  s = [] ∨ ∃ ds, Digits ds ∧ s = '.' :: ds

def Exponent (s : List Char) : Prop :=
  s = [] ∨ ∃ e sign ds, e ∈ ['e', 'E'] ∧ sign ∈ [[], ['+'], ['-']] ∧ Digits ds ∧
    s = e :: (sign ++ ds)

/-- A number without its sign. -/
def Unsigned (s : List Char) : Prop :=
  ∃ i f e, Integral i ∧ Fraction f ∧ Exponent e ∧ s = i ++ (f ++ e)

/-- A hexadecimal digit, in either case. -/
def HexDigit (value : Nat) (c : Char) : Prop :=
  value < 16 ∧ (c = Nat.digitChar value ∨ c = (Nat.digitChar value).toUpper)

/-- Four hexadecimal digits. -/
def HexUnit (value : Nat) (s : List Char) : Prop :=
  ∃ a b c d, HexDigit (value / 0x1000) a ∧ HexDigit (value / 0x100 % 0x10) b ∧
    HexDigit (value / 0x10 % 0x10) c ∧ HexDigit (value % 0x10) d ∧ s = [a, b, c, d]

/-- The characters that have an escape of one letter. -/
def letters : List (Char × Char) :=
  [('"', '"'), ('\\', '\\'), ('/', '/'), ('b', '\x08'), ('f', '\x0c'), ('n', '\n'), ('r', '\r'),
    ('t', '\t')]

/-- A text for a character inside a string. -/
inductive SpellsChar : Char → List Char → Prop
  | itself {c : Char} : c ≠ '"' → c ≠ '\\' → 0x20 ≤ c.toNat → SpellsChar c [c]
  | letter {c l : Char} : (l, c) ∈ letters → SpellsChar c ['\\', l]
  | unit {c : Char} {s : List Char} : HexUnit c.toNat s → SpellsChar c ('\\' :: 'u' :: s)
  /-- The two halves of ten bits of a character above the first 65536. -/
  | pair {c : Char} {s t : List Char} : 0x10000 ≤ c.toNat →
      HexUnit (0xD800 + (c.toNat - 0x10000) / 0x400) s →
      HexUnit (0xDC00 + (c.toNat - 0x10000) % 0x400) t →
      SpellsChar c ('\\' :: 'u' :: (s ++ '\\' :: 'u' :: t))

inductive SpellsChars : List Char → List Char → Prop
  | nil : SpellsChars [] []
  | cons {c : Char} {cs s t : List Char} : SpellsChar c s → SpellsChars cs t →
      SpellsChars (c :: cs) (s ++ t)

/-- A text for a string, quotes included. -/
def SpellsString (x : String) (s : List Char) : Prop :=
  ∃ t, SpellsChars x.toList t ∧ s = '"' :: (t ++ ['"'])

/-! ## Values -/

mutual

/-- A text for a value, without white space around it. -/
inductive Spells : Value → List Char → Prop
  | nullLiteral : Spells .null ['n', 'u', 'l', 'l']
  | trueLiteral : Spells (.boolean true) ['t', 'r', 'u', 'e']
  | falseLiteral : Spells (.boolean false) ['f', 'a', 'l', 's', 'e']
  | number {s : List Char} : Unsigned s → Spells (.number s) s
  | negative {s : List Char} : Unsigned s → Spells (.number ('-' :: s)) ('-' :: s)
  | text {x : String} {s : List Char} : SpellsString x s → Spells (.text x) s
  | emptyList {a : List Char} : Blank a → Spells (.list []) ('[' :: (a ++ [']']))
  | list {vs : List Value} {s : List Char} : SpellsItems vs s →
      Spells (.list vs) ('[' :: (s ++ [']']))
  | emptyObject {a : List Char} : Blank a → Spells (.object []) ('\x7b' :: (a ++ ['\x7d']))
  | object {ms : List (String × Value)} {s : List Char} : SpellsMembers ms s →
      Spells (.object ms) ('\x7b' :: (s ++ ['\x7d']))

/-- A text for the items of a list, at least one. -/
inductive SpellsItems : List Value → List Char → Prop
  | last {v : Value} {a s b : List Char} : Blank a → Spells v s → Blank b →
      SpellsItems [v] (a ++ (s ++ b))
  | cons {v : Value} {vs : List Value} {a s b t : List Char} : Blank a → Spells v s → Blank b →
      SpellsItems vs t → SpellsItems (v :: vs) (a ++ (s ++ (b ++ ',' :: t)))

/-- A text for a member of an object. -/
inductive SpellsMember : String × Value → List Char → Prop
  | mk {k : String} {v : Value} {a key b c s d : List Char} : Blank a → SpellsString k key →
      Blank b → Blank c → Spells v s → Blank d →
      SpellsMember (k, v) (a ++ (key ++ (b ++ ':' :: (c ++ (s ++ d)))))

/-- A text for the members of an object, at least one. -/
inductive SpellsMembers : List (String × Value) → List Char → Prop
  | last {m : String × Value} {s : List Char} : SpellsMember m s → SpellsMembers [m] s
  | cons {m : String × Value} {ms : List (String × Value)} {s t : List Char} : SpellsMember m s →
      SpellsMembers ms t → SpellsMembers (m :: ms) (s ++ ',' :: t)

end

/-- A whole text that spells a value. -/
def Document (v : Value) (text : List Char) : Prop :=
  ∃ a s b, Blank a ∧ Spells v s ∧ Blank b ∧ text = a ++ (s ++ b)

/-! ## White space in front -/

theorem blank_nil : Blank [] := by
  intro c hc
  cases hc

theorem isSpace_iff {c : Char} : isSpace c = true ↔ c ∈ spaces := by
  simp [isSpace, spaces, or_assoc]

theorem skipSpace_blank {a : List Char} (h : Blank a) (s : List Char) :
    skipSpace (a ++ s) = skipSpace s := by
  induction a with
  | nil => rfl
  | cons c a ih =>
    obtain ⟨hc, ha⟩ := List.forall_mem_cons.mp h
    rw [List.cons_append, skipSpace, List.dropWhile_cons_of_pos (isSpace_iff.mpr hc)]
    exact ih ha

theorem skipSpace_cons {c : Char} (h : c ∉ spaces) (s : List Char) : skipSpace (c :: s) = c :: s := by
  rw [skipSpace, List.dropWhile_cons_of_neg]
  rwa [isSpace_iff]

/-- White space before a token is passed over. -/
theorem skipSpace_blank_cons {a : List Char} (ha : Blank a) {c : Char} (hc : c ∉ spaces)
    (s : List Char) : skipSpace (a ++ c :: s) = c :: s := by
  rw [skipSpace_blank ha, skipSpace_cons hc]

theorem not_mem_spaces {c : Char} (h : c ∉ delimiters) : c ∉ spaces :=
  fun hc => h (List.mem_append_left _ hc)

end TapeMachine.Json
