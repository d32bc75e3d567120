/-!
# Ranges of code points

A character class of the Unicode database is kept as a list of closed ranges in increasing order.
-/

namespace TapeMachine.Text

/-- Closed ranges of code points, each with its first and its last one. -/
abbrev CodeRanges := List (Nat × Nat)

/-- Tells whether a character lies in one of the ranges. -/
def CodeRanges.contains (ranges : CodeRanges) (c : Char) : Bool :=
  ranges.any fun r => r.1 ≤ c.toNat && c.toNat ≤ r.2

end TapeMachine.Text
