import Mathlib.Logic.Function.Basic
import TapeMachine.Stack
import TapeMachine.Tape

/-!
# Tapes and stacks without ends

A tape without ends is a symbol for every integer, counted from the head; a stack without a bottom is
a symbol for every natural number, counted from the top. A finite tape or stack stands for the one that
goes on with blanks (`Tape.unbounded`, `Stack.unbounded`), and what an operation does to it does not
show where its cells end: writing changes the symbol at zero, moving shifts all symbols by one
(`unbounded_write`, `unbounded_move`, `unbounded_push`, `unbounded_rest`).
-/

namespace TapeMachine

variable {α : Type}

/-- A tape without ends, as seen from its head. -/
abbrev EndlessTape (α : Type) := Int → α

/-- A stack without a bottom, as seen from its top. -/
abbrev EndlessStack (α : Type) := Nat → α

namespace EndlessTape

/-- Overwrites the symbol under the head, unless the new one is the no-write symbol. -/
def write [DecidableEq α] (t : EndlessTape α) (noWrite value : α) : EndlessTape α :=
  if value = noWrite then t else Function.update t 0 value

/-- Moves the head by one cell, so that all symbols shift the other way. -/
def move (t : EndlessTape α) : Direction → EndlessTape α
  | .left => fun i => t (i - 1)
  | .right => fun i => t (i + 1)
  | .stay => t

end EndlessTape

namespace EndlessStack

/-- Drops the topmost symbol. -/
def rest (s : EndlessStack α) : EndlessStack α :=
  fun i => s (i + 1)

/-- Puts a symbol on top, unless it is the no-write symbol. -/
def push [DecidableEq α] (s : EndlessStack α) (noWrite value : α) : EndlessStack α :=
  if value = noWrite then s
  else fun
    | 0 => value
    | i + 1 => s i

end EndlessStack

namespace Tape

/-- The tape that goes on with blanks: at `i` the cell `i` places from the head, or else the blank. -/
def unbounded (t : Tape α) (blank : α) : EndlessTape α := fun i =>
  if 0 ≤ t.head + i then t.cells.getD (t.head + i).toNat blank else blank

/-- At and after the head. -/
theorem unbounded_ofNat (t : Tape α) (blank : α) (n : Nat) :
    t.unbounded blank n = (t.current :: t.after).getD n blank := by
  have hpos : (0 : Int) ≤ t.head + (n : Int) := by omega
  have hindex : ((t.head : Int) + n).toNat = t.before.reverse.length + n := by
    simp only [head, List.length_reverse]
    omega
  simp only [unbounded, if_pos hpos, hindex, cells, List.getD_eq_getElem?_getD,
    List.getElem?_append_right (Nat.le_add_right _ n), Nat.add_sub_cancel_left]

/-- Before the head. -/
theorem unbounded_negSucc (t : Tape α) (blank : α) (n : Nat) :
    t.unbounded blank (Int.negSucc n) = t.before.getD n blank := by
  by_cases h : n < t.before.length
  · have hpos : (0 : Int) ≤ t.head + Int.negSucc n := by
      simp only [head]
      omega
    have hindex : ((t.head : Int) + Int.negSucc n).toNat = t.before.length - 1 - n := by
      simp only [head]
      omega
    have hfront : t.before.length - 1 - n < t.before.reverse.length := by
      rw [List.length_reverse]
      omega
    have hback : t.before.length - 1 - (t.before.length - 1 - n) = n := by omega
    rw [unbounded, if_pos hpos, hindex, cells, List.getD_eq_getElem?_getD,
      List.getElem?_append_left hfront,
      List.getElem?_reverse (by rwa [List.length_reverse] at hfront), hback,
      List.getD_eq_getElem?_getD]
  · have hneg : ¬(0 : Int) ≤ t.head + Int.negSucc n := by
      simp only [head]
      omega
    rw [unbounded, if_neg hneg, List.getD_eq_getElem?_getD,
      List.getElem?_eq_none (Nat.le_of_not_lt h), Option.getD_none]

/-- What is under the head. -/
theorem unbounded_zero (t : Tape α) (blank : α) : t.unbounded blank 0 = t.current :=
  t.unbounded_ofNat blank 0

theorem unbounded_write [DecidableEq α] (t : Tape α) (blank value : α) :
    (t.write value).unbounded blank = (t.unbounded blank).write t.marks.noWrite value := by
  by_cases h : value = t.marks.noWrite
  · rw [h, write_noWrite, EndlessTape.write, if_pos rfl]
  · have hwrite : t.write value = { t with current := value } := by
      rw [write, if_neg h]
    rw [EndlessTape.write, if_neg h, hwrite]
    funext i
    rcases i with (_ | n) | n
    · exact unbounded_zero _ blank
    · have hafter : Int.ofNat (n + 1) ≠ 0 := Int.natCast_ne_zero.mpr (Nat.succ_ne_zero n)
      rw [Function.update_of_ne hafter]
      exact (unbounded_ofNat _ blank (n + 1)).trans (unbounded_ofNat t blank (n + 1)).symm
    · have hbefore : Int.negSucc n ≠ 0 := Int.negSucc_ne_zero n
      rw [Function.update_of_ne hbefore, unbounded_negSucc, unbounded_negSucc]

/-- A move past an end is a move like any other if the tape grows by the blank it goes on with. -/
theorem unbounded_move (t : Tape α) (d : Direction) :
    (t.move d).unbounded t.marks.blank = (t.unbounded t.marks.blank).move d := by
  rcases t with ⟨marks, before, current, after⟩
  cases d with
  | stay => rfl
  | left =>
    funext i
    -- the cell at `i` is now the one that was at `i - 1`
    rcases i with (_ | n) | n
    · show unbounded _ _ 0 = unbounded _ _ (Int.negSucc 0)
      rw [unbounded_zero, unbounded_negSucc]
      cases before <;> rfl
    · have hprevious : ((n + 1 : Nat) : Int) - 1 = (n : Int) := by omega
      show unbounded _ _ ((n + 1 : Nat) : Int) = unbounded _ _ (((n + 1 : Nat) : Int) - 1)
      rw [hprevious, unbounded_ofNat, unbounded_ofNat]
      cases before <;> rfl
    · have hprevious : Int.negSucc n - 1 = Int.negSucc (n + 1) := by omega
      show unbounded _ _ (Int.negSucc n) = unbounded _ _ (Int.negSucc n - 1)
      rw [hprevious, unbounded_negSucc, unbounded_negSucc]
      cases before <;> rfl
  | right =>
    funext i
    -- the cell at `i` is now the one that was at `i + 1`
    rcases i with n | _ | n
    · show unbounded _ _ (n : Int) = unbounded _ _ ((n + 1 : Nat) : Int)
      rw [unbounded_ofNat, unbounded_ofNat]
      cases after <;> cases n <;> rfl
    · show unbounded _ _ (Int.negSucc 0) = unbounded _ _ 0
      rw [unbounded_zero, unbounded_negSucc]
      cases after <;> rfl
    · have hnext : Int.negSucc (n + 1) + 1 = Int.negSucc n := by omega
      show unbounded _ _ (Int.negSucc (n + 1)) = unbounded _ _ (Int.negSucc (n + 1) + 1)
      rw [hnext, unbounded_negSucc, unbounded_negSucc]
      cases after <;> rfl

end Tape

namespace Stack

/-- The stack that goes on with blanks below its items. -/
def unbounded (s : Stack α) (blank : α) : EndlessStack α :=
  fun i => s.items.reverse.getD i blank

theorem unbounded_zero (s : Stack α) : s.unbounded s.marks.blank 0 = s.top := by
  cases h : s.topDown <;> simp [unbounded, items, top, h]

theorem unbounded_rest (s : Stack α) (blank : α) :
    s.rest.unbounded blank = (s.unbounded blank).rest := by
  funext i
  cases h : s.topDown <;> simp [unbounded, items, rest, EndlessStack.rest, h]

theorem unbounded_push [DecidableEq α] (s : Stack α) (blank value : α) :
    (s.push value).unbounded blank = (s.unbounded blank).push s.marks.noWrite value := by
  by_cases h : value = s.marks.noWrite
  · rw [h, push_noWrite, EndlessStack.push, if_pos rfl]
  · rw [push, if_neg h, EndlessStack.push, if_neg h]
    funext i
    cases i <;> simp [unbounded, items]

end Stack

end TapeMachine
