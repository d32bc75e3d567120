import TapeMachine.Text.Ranges

/-!
# White space

The characters with the Unicode property `White_Space`. It is the class that separates direction
tokens; it holds no joiner, no byte order mark and none of the four information separators.
-/

namespace TapeMachine.Text

/-- The ranges of the property `White_Space`. -/
def blankRanges : CodeRanges :=
  [(0x9, 0xD), (0x20, 0x20), (0x85, 0x85), (0xA0, 0xA0), (0x1680, 0x1680), (0x2000, 0x200A),
   (0x2028, 0x2029), (0x202F, 0x202F), (0x205F, 0x205F), (0x3000, 0x3000)]

/-- Tells whether a character is white space. -/
def isBlank (c : Char) : Bool :=
  blankRanges.contains c

end TapeMachine.Text
