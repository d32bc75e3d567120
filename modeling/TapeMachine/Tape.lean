import TapeMachine.Direction
import TapeMachine.Marks

/-!
# Tapes

A tape is a finite run of cells with a head on one of them. It grows by a blank cell when the head
moves past either end. The cell under the head is kept apart from the cells on its two sides, so a
tape always has a cell and its head is always on one; `cells` and `head` are the tape as a list with
a position, and the lemmas say what each operation does to them.
-/

namespace TapeMachine

/-- A tape, seen from its head. -/
structure Tape (α : Type) where
  /-- The blank and the no-write symbol. -/
  marks : Marks α
  /-- The cells before the head, nearest first. -/
  before : List α
  /-- The symbol under the head. -/
  current : α
  /-- The cells after the head, nearest first. -/
  after : List α
  deriving DecidableEq, Repr

namespace Tape

variable {α : Type}

/-- A tape with the head on the first cell. Without content it has one blank cell. -/
def ofList (marks : Marks α) : (content : List α) → Tape α
  | [] => ⟨marks, [], marks.blank, []⟩
  | c :: cs => ⟨marks, [], c, cs⟩

/-- The content from the first cell to the last. -/
def cells (t : Tape α) : List α :=
  t.before.reverse ++ t.current :: t.after

/-- The index of the cell under the head. -/
def head (t : Tape α) : Nat :=
  t.before.length

/-- The number of cells. -/
def length (t : Tape α) : Nat :=
  t.before.length + 1 + t.after.length

/-- Overwrites the symbol under the head, unless the new one is the no-write symbol. -/
def write [DecidableEq α] (t : Tape α) (value : α) : Tape α :=
  if value = t.marks.noWrite then t else { t with current := value }

/-- Moves the head by one cell, onto a new blank cell past either end. -/
def move (t : Tape α) : Direction → Tape α
  | .left =>
    match t.before with
    | [] => { t with current := t.marks.blank, after := t.current :: t.after }
    | c :: cs => { t with before := cs, current := c, after := t.current :: t.after }
  | .right =>
    match t.after with
    | [] => { t with before := t.current :: t.before, current := t.marks.blank }
    | c :: cs => { t with before := t.current :: t.before, current := c, after := cs }
  | .stay => t

/-! ## The list view -/

@[simp]
theorem cells_ofList_nil (marks : Marks α) : (ofList marks []).cells = [marks.blank] := rfl

@[simp]
theorem cells_ofList_cons (marks : Marks α) (c : α) (cs : List α) :
    (ofList marks (c :: cs)).cells = c :: cs := rfl

@[simp]
theorem head_ofList (marks : Marks α) (content : List α) : (ofList marks content).head = 0 := by
  cases content <;> rfl

@[simp]
theorem length_cells (t : Tape α) : t.cells.length = t.length := by
  simp only [cells, length, List.length_append, List.length_reverse, List.length_cons]
  omega

theorem head_lt_length (t : Tape α) : t.head < t.length := by
  simp only [head, length]
  omega

@[simp]
theorem cells_head (t : Tape α) : t.cells[t.head]? = some t.current := by
  simp [cells, head]

@[simp]
theorem marks_ofList (marks : Marks α) (content : List α) :
    (ofList marks content).marks = marks := by
  cases content <;> rfl

@[simp]
theorem marks_write [DecidableEq α] (t : Tape α) (value : α) :
    (t.write value).marks = t.marks := by
  unfold write; split <;> rfl

@[simp]
theorem marks_move (t : Tape α) (d : Direction) : (t.move d).marks = t.marks := by
  unfold move; split <;> (try split) <;> rfl

@[simp]
theorem head_write [DecidableEq α] (t : Tape α) (value : α) : (t.write value).head = t.head := by
  unfold write; split <;> rfl

theorem cells_write [DecidableEq α] (t : Tape α) {value : α} (h : value ≠ t.marks.noWrite) :
    (t.write value).cells = t.cells.set t.head value := by
  simp [write, h, cells, head]

@[simp]
theorem write_noWrite [DecidableEq α] (t : Tape α) : t.write t.marks.noWrite = t := by
  simp [write]

end Tape

end TapeMachine
