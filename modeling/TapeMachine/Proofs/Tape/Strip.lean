import TapeMachine.Tape

/-!
# Tapes as strips of cells

A tape as a list of cells with the index of the head, the form in which the cells are stored one after
the other: a move past the front puts a blank before all cells, which shifts every index. Reading and
writing at an index may miss the cells, so both are partial here. The main statements say that they
never miss on a tape (`read?_strip`, `write?_strip`) and that a tape is its strip under every operation
(`move_strip`).
-/

namespace TapeMachine

/-- Cells in a row and the index of the head, which need not be one of theirs. -/
structure Strip (α : Type) where
  cells : List α
  head : Nat

namespace Strip

variable {α : Type}

/-- The symbol under the head, if there is a cell. -/
def read? (s : Strip α) : Option α :=
  s.cells[s.head]?

/-- Overwrites the cell under the head, if there is one; the no-write symbol needs no cell. -/
def write? [DecidableEq α] (s : Strip α) (noWrite value : α) : Option (Strip α) :=
  if value = noWrite then some s
  else if s.head < s.cells.length then some { s with cells := s.cells.set s.head value }
  else none

/-- Moves the head. A blank is put at the end of the cells that the head leaves. -/
def move (s : Strip α) (blank : α) : Direction → Strip α
  | .left =>
    if s.head = 0 then { s with cells := blank :: s.cells } else { s with head := s.head - 1 }
  | .right =>
    if s.head + 1 = s.cells.length then ⟨s.cells ++ [blank], s.head + 1⟩
    else { s with head := s.head + 1 }
  | .stay => s

end Strip

namespace Tape

variable {α : Type}

/-- The cells of a tape in a row. -/
def strip (t : Tape α) : Strip α :=
  ⟨t.cells, t.head⟩

/-- The head of a tape is on a cell. -/
theorem read?_strip (t : Tape α) : t.strip.read? = some t.current :=
  t.cells_head

/-- Writing on a tape finds the cell. -/
theorem write?_strip [DecidableEq α] (t : Tape α) (value : α) :
    t.strip.write? t.marks.noWrite value = some (t.write value).strip := by
  unfold Strip.write?
  by_cases h : value = t.marks.noWrite
  · rw [if_pos h, h, write_noWrite]
  · have hhead : t.strip.head < t.strip.cells.length := by
      show t.head < t.cells.length
      rw [length_cells]
      exact t.head_lt_length
    rw [if_neg h, if_pos hhead]
    simp only [strip, cells_write t h, head_write]

/-- Moving on a tape shifts the cells as on the strip. -/
theorem move_strip (t : Tape α) (d : Direction) :
    t.strip.move t.marks.blank d = (t.move d).strip := by
  cases d with
  | stay => rfl
  | left =>
    rcases t with ⟨marks, _ | ⟨c, cs⟩, current, after⟩
    · rfl
    · simp [Strip.move, strip, Tape.move, cells, head]
  | right =>
    rcases t with ⟨marks, before, current, _ | ⟨c, cs⟩⟩
    · simp [Strip.move, strip, Tape.move, cells, head]
    · simp [Strip.move, strip, Tape.move, cells, head]

end Tape

end TapeMachine
