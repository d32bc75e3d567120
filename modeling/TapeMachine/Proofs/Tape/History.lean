import Mathlib.Order.Bounds.Image
import TapeMachine.Proofs.Tape.Trimmed

/-!
# Tapes after any history

A cell that is put before the first one shifts the index of every other cell, so where a value was written
says nothing about the index it is found at. What stays is the place: the sum of the moves so far, counted
from the cell that the head started on. The cells of a tape are the places from the least to the greatest
that it has a cell for, and each holds the last value written while the head was there
(`content_after_edits`). One edit shifts the tape without ends that a tape stands for (`unbounded_edit`) and
takes in at most one more place (`head_edit`, `length_edit`); the rest is induction on the history.
-/

namespace TapeMachine

/-- How many places a move takes the head to the right. -/
def Direction.offset : Direction → Int
  | .left => -1
  | .right => 1
  | .stay => 0

/-- What is done to a tape. -/
inductive Edit (α : Type) where
  | write (value : α)
  | move (d : Direction)
  deriving DecidableEq, Repr

namespace Edit

variable {α : Type}

/-- How many places an edit takes the head to the right. -/
def offset : Edit α → Int
  | .write _ => 0
  | .move d => d.offset

/-- The value that an edit writes, unless it is the no-write symbol. -/
def value? [DecidableEq α] (noWrite : α) : Edit α → Option α
  | .write v => if v = noWrite then none else some v
  | .move _ => none

/-! ## Places of a history -/

/-- Where the head is after a history, from where it started. -/
def place : List (Edit α) → Int
  | [] => 0
  | e :: es => e.offset + place es

/-- The places where the head has been in the course of a history. -/
def places (edits : List (Edit α)) : Set Int :=
  Set.range fun k => place (edits.take k)

/-- The least of these places. -/
def leftmost : List (Edit α) → Int
  | [] => 0
  | e :: es => min 0 (e.offset + leftmost es)

/-- The greatest of these places. -/
def rightmost : List (Edit α) → Int
  | [] => 0
  | e :: es => max 0 (e.offset + rightmost es)

/-- The values that a history writes while the head is at a place, from the first to the last. -/
def writtenAt [DecidableEq α] (noWrite : α) (edits : List (Edit α)) (p : Int) : List α :=
  (List.range edits.length).filterMap fun k =>
    if p = place (edits.take k) then edits[k]?.bind (value? noWrite) else none

@[simp]
theorem place_nil : place ([] : List (Edit α)) = 0 := rfl

@[simp]
theorem place_cons (e : Edit α) (es : List (Edit α)) : place (e :: es) = e.offset + place es := rfl

theorem places_nil : places ([] : List (Edit α)) = {0} := by
  simp [places]

/-- The head starts at zero, and the places after an edit are counted from where that leaves the head. -/
theorem places_cons (e : Edit α) (es : List (Edit α)) :
    places (e :: es) = insert 0 ((fun p => e.offset + p) '' places es) := by
  ext p
  constructor
  · rintro ⟨_ | k, rfl⟩
    · exact .inl rfl
    · exact .inr ⟨_, ⟨k, rfl⟩, rfl⟩
  · rintro (rfl | ⟨_, ⟨k, rfl⟩, rfl⟩)
    · exact ⟨0, rfl⟩
    · exact ⟨k + 1, rfl⟩

theorem isLeast_leftmost (edits : List (Edit α)) : IsLeast (places edits) (leftmost edits) := by
  induction edits with
  | nil =>
    rw [places_nil]
    exact isLeast_singleton
  | cons e es ih =>
    have hshift : Monotone fun p => e.offset + p := fun _ _ h => Int.add_le_add_left h e.offset
    rw [places_cons]
    exact (hshift.map_isLeast ih).insert 0

theorem isGreatest_rightmost (edits : List (Edit α)) :
    IsGreatest (places edits) (rightmost edits) := by
  induction edits with
  | nil =>
    rw [places_nil]
    exact isGreatest_singleton
  | cons e es ih =>
    have hshift : Monotone fun p => e.offset + p := fun _ _ h => Int.add_le_add_left h e.offset
    rw [places_cons]
    exact (hshift.map_isGreatest ih).insert 0

theorem leftmost_nonpos (edits : List (Edit α)) : leftmost edits ≤ 0 :=
  (isLeast_leftmost edits).2 ⟨0, rfl⟩

theorem rightmost_nonneg (edits : List (Edit α)) : 0 ≤ rightmost edits :=
  (isGreatest_rightmost edits).2 ⟨0, rfl⟩

/-- What an edit writes is at zero; what is written later has its place counted from where the edit leaves the
head. -/
theorem writtenAt_cons [DecidableEq α] (noWrite : α) (e : Edit α) (es : List (Edit α)) (p : Int) :
    writtenAt noWrite (e :: es) p =
      (if p = 0 then e.value? noWrite else none).toList ++ writtenAt noWrite es (p - e.offset) := by
  have hfirst : (if p = place ((e :: es).take 0) then (e :: es)[0]?.bind (value? noWrite)
      else none) = if p = 0 then e.value? noWrite else none := rfl
  have hlater : ∀ k, (if p = place ((e :: es).take (k + 1)) then
      (e :: es)[k + 1]?.bind (value? noWrite) else none) =
        if p - e.offset = place (es.take k) then es[k]?.bind (value? noWrite) else none := by
    intro k
    have hplace : p = place ((e :: es).take (k + 1)) ↔ p - e.offset = place (es.take k) := by
      rw [List.take_succ_cons, place_cons]
      omega
    simp only [hplace, List.getElem?_cons_succ]
  rw [writtenAt, List.length_cons, List.range_succ_eq_map, List.filterMap_cons, List.filterMap_map,
    hfirst]
  simp only [Function.comp_def, Nat.succ_eq_add_one, hlater]
  rw [← writtenAt]
  cases (if p = 0 then e.value? noWrite else none) <;> rfl

end Edit

namespace Tape

variable {α : Type}

/-! ## Cells by their place -/

theorem length_ofList (marks : Marks α) (content : List α) :
    (ofList marks content).length = max content.length 1 := by
  cases content with
  | nil => rfl
  | cons c cs =>
    simp only [ofList, length, List.length_nil, List.length_cons]
    omega

theorem unbounded_ofList_eq_ite (marks : Marks α) (content : List α) (p : Int) :
    (ofList marks content).unbounded marks.blank p =
      if 0 ≤ p then content.getD p.toNat marks.blank else marks.blank := by
  rw [unbounded_ofList]
  rcases p with n | n <;> rfl

/-- A cell by its place from the head. -/
theorem cells_eq_unbounded (t : Tape α) (blank : α) {i : Nat} (h : i < t.length) :
    t.cells[i]? = some (t.unbounded blank (i - t.head)) := by
  have hindex : (t.head : Int) + (i - t.head) = i := by omega
  rw [unbounded, hindex, if_pos (Int.natCast_nonneg i), Int.toNat_natCast,
    List.getD_eq_getElem?_getD]
  rw [← length_cells] at h
  rw [List.getElem?_eq_getElem h, Option.getD_some]

/-! ## One edit -/

variable [DecidableEq α]

/-- A tape after an edit. -/
def edit (t : Tape α) : Edit α → Tape α
  | .write v => t.write v
  | .move d => t.move d

/-- A tape after a history. -/
def edited (t : Tape α) (edits : List (Edit α)) : Tape α :=
  edits.foldl edit t

@[simp]
theorem marks_edit (t : Tape α) (e : Edit α) : (t.edit e).marks = t.marks := by
  cases e <;> simp [edit]

theorem length_write (t : Tape α) (v : α) : (t.write v).length = t.length := by
  unfold write; split <;> rfl

/-- The first cell of a tape is `head` places to the left of the head, and one further after a move past
it. -/
theorem head_edit (t : Tape α) (e : Edit α) :
    ((t.edit e).head : Int) = e.offset - min (-(t.head : Int)) e.offset := by
  cases e with
  | write v =>
    rw [edit, head_write, Edit.offset]
    omega
  | move d =>
    rcases t with ⟨marks, before, current, after⟩
    cases d <;> cases before <;> cases after <;>
      simp [edit, move, head, Edit.offset, Direction.offset] <;> omega

/-- The last cell of a tape is `length - 1 - head` places to the right of the head, and one further after a
move past it. -/
theorem length_edit (t : Tape α) (e : Edit α) :
    ((t.edit e).length : Int) =
      max ((t.length : Int) - 1 - t.head) e.offset - min (-(t.head : Int)) e.offset + 1 := by
  cases e with
  | write v =>
    have hhead := t.head_lt_length
    rw [edit, length_write, Edit.offset]
    omega
  | move d =>
    rcases t with ⟨marks, before, current, after⟩
    cases d <;> cases before <;> cases after <;>
      simp [edit, move, head, length, Edit.offset, Direction.offset] <;> omega

/-- An edit writes at the head and shifts what there is. -/
theorem unbounded_edit (t : Tape α) (e : Edit α) (p : Int) :
    (t.edit e).unbounded t.marks.blank (p - e.offset) =
      (if p = 0 then e.value? t.marks.noWrite else none).getD (t.unbounded t.marks.blank p) := by
  cases e with
  | write v =>
    rw [edit, unbounded_write, EndlessTape.write, Edit.offset, Edit.value?, Int.sub_zero]
    by_cases hv : v = t.marks.noWrite
    · simp [hv]
    · by_cases hp : p = 0
      · simp [hv, hp]
      · simp [hv, hp]
  | move d =>
    rw [edit, unbounded_move, Edit.value?, ite_self, Option.getD_none]
    cases d <;> simp [EndlessTape.move, Edit.offset, Direction.offset]

/-! ## Histories -/

@[simp]
theorem edited_cons (t : Tape α) (e : Edit α) (es : List (Edit α)) :
    t.edited (e :: es) = (t.edit e).edited es := rfl

theorem head_edited (t : Tape α) (edits : List (Edit α)) :
    ((t.edited edits).head : Int) = Edit.place edits - min (-(t.head : Int)) (Edit.leftmost edits) := by
  induction edits generalizing t with
  | nil =>
    show (t.head : Int) = 0 - min (-(t.head : Int)) 0
    omega
  | cons e es ih =>
    have hleft := Edit.leftmost_nonpos es
    rw [edited_cons, ih, head_edit, Edit.place_cons, Edit.leftmost]
    omega

theorem length_edited (t : Tape α) (edits : List (Edit α)) :
    ((t.edited edits).length : Int) =
      max ((t.length : Int) - 1 - t.head) (Edit.rightmost edits) -
        min (-(t.head : Int)) (Edit.leftmost edits) + 1 := by
  induction edits generalizing t with
  | nil =>
    have hhead := t.head_lt_length
    show (t.length : Int) = max ((t.length : Int) - 1 - t.head) 0 - min (-(t.head : Int)) 0 + 1
    omega
  | cons e es ih =>
    have hhead := t.head_lt_length
    have hleft := Edit.leftmost_nonpos es
    have hright := Edit.rightmost_nonneg es
    rw [edited_cons, ih, length_edit, head_edit, Edit.leftmost, Edit.rightmost]
    omega

theorem unbounded_edited (t : Tape α) (edits : List (Edit α)) (p : Int) :
    (t.edited edits).unbounded t.marks.blank (p - Edit.place edits) =
      (Edit.writtenAt t.marks.noWrite edits p).getLast?.getD (t.unbounded t.marks.blank p) := by
  induction edits generalizing t p with
  | nil =>
    rw [Edit.place_nil, Int.sub_zero]
    rfl
  | cons e es ih =>
    have hplace : p - Edit.place (e :: es) = p - e.offset - Edit.place es := by
      rw [Edit.place_cons]
      omega
    have hrest := ih (t.edit e) (p - e.offset)
    rw [marks_edit, unbounded_edit] at hrest
    rw [edited_cons, hplace, hrest, Edit.writtenAt_cons, List.getLast?_append, Option.getD_or]
    cases (if p = 0 then e.value? t.marks.noWrite else none) <;> rfl

/-- The tape that a content and a history make. The head is as far from the first cell as its place is from
the least one. There is a cell for each place of the content or of the head, and it holds the last value
written there, or else what the content has there, or else the blank. -/
theorem content_after_edits (marks : Marks α) (content : List α) (edits : List (Edit α)) :
    let t := (ofList marks content).edited edits
    let lo := Edit.leftmost edits
    let hi := Edit.rightmost edits
    IsLeast (Edit.places edits) lo ∧
    IsGreatest (Edit.places edits) hi ∧
    (t.head : Int) = Edit.place edits - lo ∧
    (t.cells.length : Int) = max (max (content.length : Int) 1 - 1) hi - lo + 1 ∧
    t.cells[t.head]? = some t.current ∧
    ∀ i < t.cells.length,
      t.cells[i]? = some ((Edit.writtenAt marks.noWrite edits (i + lo)).getLast?.getD
        (if 0 ≤ i + lo then content.getD (i + lo).toNat marks.blank else marks.blank)) := by
  intro t lo hi
  have hlo : lo ≤ 0 := Edit.leftmost_nonpos edits
  have hhead : (t.head : Int) = Edit.place edits - lo := by
    rw [head_edited, head_ofList]
    omega
  refine ⟨Edit.isLeast_leftmost edits, Edit.isGreatest_rightmost edits, hhead, ?_, t.cells_head, ?_⟩
  · rw [length_cells, length_edited, head_ofList, length_ofList]
    omega
  · intro i hlt
    rw [length_cells] at hlt
    have hplace : (i : Int) - t.head = i + lo - Edit.place edits := by omega
    have hsymbol := unbounded_edited (ofList marks content) edits (i + lo)
    rw [marks_ofList, unbounded_ofList_eq_ite] at hsymbol
    rw [cells_eq_unbounded t marks.blank hlt, hplace, hsymbol]

/-- The cell written first has been shifted by two, and the no-write symbol has left a blank. -/
example :
    ((ofList ⟨0, 9⟩ [1, 2]).edited
      [.write 5, .move .left, .move .left, .write 9, .move .right, .write 7]).cells =
        [0, 7, 5, 2] := by
  decide

end Tape

end TapeMachine
