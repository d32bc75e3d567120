/-!
# Marks

Two symbols with a role of their own on every tape and stack of a machine.
-/

namespace TapeMachine

/-- The blank and the no-write symbol. -/
structure Marks (α : Type) where
  /-- Fills the cells a tape grows by, and is what an empty stack yields. -/
  blank : α
  /-- Writing or pushing this symbol changes nothing. -/
  noWrite : α
  deriving DecidableEq, Repr

end TapeMachine
