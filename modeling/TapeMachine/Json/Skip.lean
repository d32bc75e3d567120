import TapeMachine.Json.Number

/-!
# Values that are passed over

The value of a member that nobody asks for is checked against the grammar and thrown away, however
deeply it is nested. The brackets that are open at a point are kept in a list, innermost first, so
the walk over a value is a loop whose every round consumes at least one character.
-/

namespace TapeMachine.Json

/-- What the walk over a value expects next. -/
inductive Expecting where
  /-- A value. -/
  | value
  /-- A comma or a closing bracket, or nothing more if no bracket is open. -/
  | separator
  deriving DecidableEq, Repr

/-- A point of the walk: what comes next, the open brackets, and the unread text. -/
abbrev WalkPoint := Expecting × List Bracket × List Char

namespace Bracket

/-- The character that closes a bracket. -/
def closer : Bracket → Char
  | list => ']'
  | object => '\x7d'

end Bracket

/-- The text from the value of a member on, given the text from its colon on. -/
def skipColon (s : List Char) : Except Failure (List Char) :=
  match skipSpace s with
  | [] => .error ⟨.endIn .object, [], 0⟩
  | ':' :: r => .ok r
  | r => .error ⟨.colonExpected, r, 1⟩

theorem length_of_skipColon {s r : List Char} (h : skipColon s = .ok r) :
    r.length < s.length := by
  have space := length_skipSpace_le s
  unfold skipColon at h
  split at h
  · cases h
  · rename_i hr
    rw [hr] at space
    cases h
    exact space
  · cases h

/-- The walk from where an element or a member begins. -/
def enterItem (b : Bracket) (outer : List Bracket) (s : List Char) : Except Failure WalkPoint :=
  match b with
  | .list => .ok (.value, .list :: outer, s)
  | .object =>
    match skipSpace s with
    | [] => .error ⟨.endIn .object, [], 0⟩
    | '"' :: r =>
      match skipString r with
      | .error f => .error f
      | .ok t =>
        match skipColon t with
        | .error f => .error f
        | .ok u => .ok (.value, .object :: outer, u)
    | r => .error ⟨.keyExpected, r, 1⟩

theorem length_of_enterItem {b : Bracket} {outer : List Bracket} {s : List Char} {p : WalkPoint}
    (h : enterItem b outer s = .ok p) : p.2.2.length ≤ s.length := by
  have space := length_skipSpace_le s
  unfold enterItem at h
  split at h
  · cases h; exact Nat.le_refl _
  · split at h
    · cases h
    · rename_i r hr
      rw [hr, List.length_cons] at space
      split at h
      · cases h
      · rename_i t ht
        have := length_of_skipString ht
        split at h
        · cases h
        · rename_i u hu
          have := length_of_skipColon hu
          cases h
          dsimp only
          omega
    · cases h

/-- The walk from after an opening bracket on. -/
def enter (b : Bracket) (outer : List Bracket) (s : List Char) : Except Failure WalkPoint :=
  match skipSpace s with
  | [] => .error ⟨.endIn b, [], 0⟩
  | c :: r => if c = b.closer then .ok (.separator, outer, r) else enterItem b outer (c :: r)

theorem length_of_enter {b : Bracket} {outer : List Bracket} {s : List Char} {p : WalkPoint}
    (h : enter b outer s = .ok p) : p.2.2.length ≤ s.length := by
  have space := length_skipSpace_le s
  unfold enter at h
  split at h
  · cases h
  · rename_i c r hr
    rw [hr] at space
    split at h
    · cases h; simp only [List.length_cons] at space; exact Nat.le_of_lt space
    · exact Nat.le_trans (length_of_enterItem h) space

/-- The rest of a text after a value that is no list and no object. -/
def skipScalar (s : List Char) : Except Failure (List Char) :=
  match s with
  | [] => .error ⟨.endInValue, [], 0⟩
  | 'n' :: r => literal ['u', 'l', 'l'] r
  | 't' :: r => literal ['r', 'u', 'e'] r
  | 'f' :: r => literal ['a', 'l', 's', 'e'] r
  | '"' :: r => skipString r
  | '-' :: r => skipNumber r
  | c :: _ => if isDigit c then skipNumber s else .error ⟨.valueExpected, s, 1⟩

theorem length_of_skipScalar {s r : List Char} (h : skipScalar s = .ok r) :
    r.length < s.length := by
  unfold skipScalar at h
  split at h
  · cases h
  · exact Nat.lt_succ_of_le (length_of_literal h)
  · exact Nat.lt_succ_of_le (length_of_literal h)
  · exact Nat.lt_succ_of_le (length_of_literal h)
  · exact Nat.lt_succ_of_lt (length_of_skipString h)
  · exact Nat.lt_succ_of_lt (length_of_skipNumber h)
  · split at h
    · exact length_of_skipNumber h
    · cases h

/-- One round of the walk where a value is expected. -/
def stepValue (outer : List Bracket) (s : List Char) : Except Failure WalkPoint :=
  match skipSpace s with
  | '[' :: r => enter .list outer r
  | '\x7b' :: r => enter .object outer r
  | r =>
    match skipScalar r with
    | .error f => .error f
    | .ok t => .ok (.separator, outer, t)

theorem length_of_stepValue {outer : List Bracket} {s : List Char} {p : WalkPoint}
    (h : stepValue outer s = .ok p) : p.2.2.length < s.length := by
  have space := length_skipSpace_le s
  unfold stepValue at h
  split at h
  · rename_i hr
    rw [hr] at space
    exact Nat.lt_of_lt_of_le (Nat.lt_succ_of_le (length_of_enter h)) space
  · rename_i hr
    rw [hr] at space
    exact Nat.lt_of_lt_of_le (Nat.lt_succ_of_le (length_of_enter h)) space
  · split at h
    · cases h
    · rename_i ht
      cases h
      exact Nat.lt_of_lt_of_le (length_of_skipScalar ht) space

/-- One round of the walk where an item of the bracket `b` has ended. -/
def stepSeparator (b : Bracket) (outer : List Bracket) (s : List Char) :
    Except Failure WalkPoint :=
  match skipSpace s with
  | [] => .error ⟨.endIn b, [], 0⟩
  | c :: r =>
    if c = ',' then enterItem b outer r
    else if c = b.closer then .ok (.separator, outer, r)
    else .error ⟨.separatorExpected b, c :: r, 1⟩

theorem length_of_stepSeparator {b : Bracket} {outer : List Bracket} {s : List Char}
    {p : WalkPoint} (h : stepSeparator b outer s = .ok p) : p.2.2.length < s.length := by
  have space := length_skipSpace_le s
  unfold stepSeparator at h
  split at h
  · cases h
  · rename_i c r hr
    rw [hr] at space
    split at h
    · exact Nat.lt_of_lt_of_le (Nat.lt_succ_of_le (length_of_enterItem h)) space
    · split at h
      · cases h; exact Nat.lt_of_lt_of_le (Nat.lt_succ_self _) space
      · cases h

/-- The walk from a point on: the rest of the text when no bracket is open and no value expected. -/
def walk (expecting : Expecting) (brackets : List Bracket) (s : List Char) :
    Except Failure (List Char) :=
  match expecting, brackets with
  | .separator, [] => .ok s
  | .separator, b :: outer =>
    match _h : stepSeparator b outer s with
    | .error f => .error f
    | .ok (e, bs, r) => walk e bs r
  | .value, outer =>
    match _h : stepValue outer s with
    | .error f => .error f
    | .ok (e, bs, r) => walk e bs r
termination_by s.length
decreasing_by
  · exact length_of_stepSeparator _h
  · exact length_of_stepValue _h

theorem length_of_walk {expecting : Expecting} {brackets : List Bracket} {s r : List Char}
    (h : walk expecting brackets s = .ok r) : r.length ≤ s.length := by
  fun_induction walk expecting brackets s with
  | case1 => cases h; exact Nat.le_refl _
  | case2 => cases h
  | case3 _ _ _ _ _ _ hs ih =>
    exact Nat.le_of_lt (Nat.lt_of_le_of_lt (ih h) (length_of_stepSeparator hs))
  | case4 => cases h
  | case5 _ _ _ _ _ hs ih => exact Nat.le_of_lt (Nat.lt_of_le_of_lt (ih h) (length_of_stepValue hs))

/-- The rest of a text after the value at its front. -/
def skipValue (s : List Char) : Except Failure (List Char) :=
  walk .value [] s

theorem length_of_skipValue {s r : List Char} (h : skipValue s = .ok r) :
    r.length < s.length := by
  rw [skipValue, walk] at h
  split at h
  · cases h
  · rename_i hs
    exact Nat.lt_of_le_of_lt (length_of_walk h) (length_of_stepValue hs)

end TapeMachine.Json
