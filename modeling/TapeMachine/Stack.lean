import TapeMachine.Marks

/-!
# Stacks

A stack yields the blank when it is empty, so popping never fails. It is kept from the top down;
`items` lists it from the bottom up, as contents are written.
-/

namespace TapeMachine

/-- A stack, seen from its top. -/
structure Stack (α : Type) where
  /-- The blank and the no-write symbol. -/
  marks : Marks α
  /-- The items, topmost first. -/
  topDown : List α
  deriving DecidableEq, Repr

namespace Stack

variable {α : Type}

/-- A stack of the given items, from the bottom up. -/
def ofList (marks : Marks α) (content : List α) : Stack α :=
  ⟨marks, content.reverse⟩

/-- The items from the bottom up. -/
def items (s : Stack α) : List α :=
  s.topDown.reverse

/-- The number of items. -/
def length (s : Stack α) : Nat :=
  s.topDown.length

/-- Tells whether there is no item. -/
def isEmpty (s : Stack α) : Bool :=
  s.topDown.isEmpty

/-- The topmost item, or the blank if there is none. -/
def top (s : Stack α) : α :=
  s.topDown.headD s.marks.blank

/-- The stack without its topmost item. -/
def rest (s : Stack α) : Stack α :=
  { s with topDown := s.topDown.tail }

/-- Takes the topmost item away. -/
def pop (s : Stack α) : α × Stack α :=
  (s.top, s.rest)

/-- Puts a symbol on top, unless it is the no-write symbol. -/
def push [DecidableEq α] (s : Stack α) (value : α) : Stack α :=
  if value = s.marks.noWrite then s else { s with topDown := value :: s.topDown }

/-! ## The list view -/

@[simp]
theorem items_ofList (marks : Marks α) (content : List α) :
    (ofList marks content).items = content := by
  simp [ofList, items]

@[simp]
theorem length_items (s : Stack α) : s.items.length = s.length := by
  simp [items, length]

@[simp]
theorem items_rest (s : Stack α) : s.rest.items = s.items.dropLast := by
  simp [rest, items]

@[simp]
theorem marks_rest (s : Stack α) : s.rest.marks = s.marks := rfl

@[simp]
theorem marks_push [DecidableEq α] (s : Stack α) (value : α) : (s.push value).marks = s.marks := by
  unfold push; split <;> rfl

theorem items_push [DecidableEq α] (s : Stack α) {value : α} (h : value ≠ s.marks.noWrite) :
    (s.push value).items = s.items ++ [value] := by
  simp [push, h, items]

@[simp]
theorem push_noWrite [DecidableEq α] (s : Stack α) : s.push s.marks.noWrite = s := by
  simp [push]

end Stack

end TapeMachine
