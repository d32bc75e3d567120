import TapeMachine.Json.Skip

/-!
# Readers

A reader takes one value of a type from the front of a JSON text. It consumes at least one
character, which is part of the type, so that lists and records can be read by loops that end.
A value of another type is reported as what it is, after its own grammar has been checked.
-/

namespace TapeMachine.Json

/-- A function that takes a value from the front of a text and leaves a shorter rest. -/
structure Reader (α : Type) where
  /-- The value and the rest. -/
  read : List Char → Except Failure (α × List Char)
  /-- Reading consumes something. -/
  shorter : ∀ {s r : List Char} {x : α}, read s = .ok (x, r) → r.length < s.length

/-- The failure of a reader that expects something else than the value at the front of `s`, where
no white space is left in front of that value. -/
def unexpected (expected : String) (s : List Char) : Failure :=
  let found (what : Found) (r : List Char) : Failure := ⟨.wrongType what expected, r, 0⟩
  let afterLiteral (what : Found) : Except Failure (List Char) → Failure
    | .ok r => found what r
    | .error f => f
  let afterNumber : Except Failure (Number × List Char) → Failure
    | .ok (n, r) => found n.found r
    | .error f => f
  match s with
  | [] => ⟨.endInValue, [], 0⟩
  | 'n' :: r => afterLiteral .null (literal ['u', 'l', 'l'] r)
  | 't' :: r => afterLiteral (.boolean true) (literal ['r', 'u', 'e'] r)
  | 'f' :: r => afterLiteral (.boolean false) (literal ['a', 'l', 's', 'e'] r)
  | '"' :: r =>
    match string r with
    | .ok (x, r) => found (.string (String.ofList x)) r
    | .error f => f
  | '[' :: _ => found .list s
  | '\x7b' :: _ => found .object s
  | '-' :: r => afterNumber (number true r)
  | c :: _ => if isDigit c then afterNumber (number false s) else ⟨.valueExpected, s, 1⟩

namespace Reader

/-- Applies a function to what is read. -/
def map {α β : Type} (f : α → β) (reader : Reader α) : Reader β where
  read s :=
    match reader.read s with
    | .ok (x, r) => .ok (f x, r)
    | .error e => .error e
  shorter := by
    intro s r x h
    split at h
    · cases h; exact reader.shorter ‹_›
    · cases h

/-- A string whose characters `convert` turns into a value. Where it does not, the string is no
`expected` thing. -/
def converted {α : Type} (expected : String) (convert : List Char → Option α) : Reader α where
  read s :=
    match skipSpace s with
    | '"' :: r =>
      match string r with
      | .error f => .error f
      | .ok (x, t) =>
        match convert x with
        | some y => .ok (y, t)
        | none => .error ⟨.wrongValue (.string (String.ofList x)) expected, t, 0⟩
    | r => .error (unexpected expected r)
  shorter := by
    intro s r x h
    have space := length_skipSpace_le s
    split at h
    · rename_i hr
      rw [hr] at space
      split at h
      · cases h
      · rename_i ht
        have := length_of_string ht
        split at h
        · cases h
          exact Nat.lt_of_lt_of_le (Nat.lt_succ_of_lt this) space
        · cases h
    · cases h

/-- A string. -/
def text : Reader String :=
  converted "a string" fun cs => some (String.ofList cs)

/-- A string of exactly one character. -/
def character : Reader Char :=
  converted "a character" fun
    | [c] => some c
    | _ => none

/-- A natural number of at most 64 bits. -/
def natural : Reader Nat where
  read s :=
    let expected := "usize"
    let r := skipSpace s
    let digits (negative : Bool) (t : List Char) : Except Failure (Nat × List Char) :=
      match number negative t with
      | .error f => .error f
      | .ok (.integer (.ofNat n), u) => .ok (n, u)
      | .ok (.integer n, u) => .error ⟨.wrongValue (.integer n) expected, u, 0⟩
      | .ok (n, u) => .error ⟨.wrongType n.found expected, u, 0⟩
    match r with
    | '-' :: t => digits true t
    | c :: _ => if isDigit c then digits false r else .error (unexpected expected r)
    | [] => .error (unexpected expected [])
  shorter := by
    intro s r x h
    have space := length_skipSpace_le s
    dsimp only at h
    split at h
    · rename_i hr
      rw [hr] at space
      split at h
      · cases h
      · rename_i hn
        have := length_of_number hn
        cases h
        exact Nat.lt_of_lt_of_le (Nat.lt_succ_of_lt this) space
      · cases h
      · cases h
    · split at h
      · split at h
        · cases h
        · rename_i hn
          have := length_of_number hn
          cases h
          exact Nat.lt_of_lt_of_le this space
        · cases h
        · cases h
      · cases h
    · cases h

/-- The value `null`. -/
def null (expected : String) : Reader Unit where
  read s :=
    match skipSpace s with
    | 'n' :: r =>
      match literal ['u', 'l', 'l'] r with
      | .error f => .error f
      | .ok t => .ok ((), t)
    | r => .error (unexpected expected r)
  shorter := by
    intro s r x h
    have space := length_skipSpace_le s
    split at h
    · rename_i hr
      rw [hr] at space
      split at h
      · cases h
      · rename_i ht
        cases h
        exact Nat.lt_of_lt_of_le (Nat.lt_succ_of_le (length_of_literal ht)) space
    · cases h

/-- A value that may be `null` instead. -/
def optional {α : Type} (reader : Reader α) : Reader (Option α) where
  read s :=
    match skipSpace s with
    | 'n' :: _ => ((null "null").map fun _ => none).read s
    | _ => (reader.map some).read s
  shorter := by
    intro s r x h
    split at h
    · exact Reader.shorter _ h
    · exact Reader.shorter _ h

/-! ## Alternatives -/

/-- The alternative of a name, from after the name's opening quote on. -/
def alternative {α : Type} (known : List (String × α)) (s : List Char) :
    Except Failure (α × List Char) :=
  match string s with
  | .error f => .error f
  | .ok (x, r) =>
    match known.find? fun k => k.1 == String.ofList x with
    | some (_, a) => .ok (a, r)
    | none => .error ⟨.unknownVariant (String.ofList x) (known.map (·.1)), r, 0⟩

theorem length_of_alternative {α : Type} {known : List (String × α)} {s r : List Char} {a : α}
    (h : alternative known s = .ok (a, r)) : r.length < s.length := by
  unfold alternative at h
  split at h
  · cases h
  · rename_i ht
    have := length_of_string ht
    split at h
    · cases h; exact this
    · cases h

/-- An alternative in braces, from after the brace on: its name, a colon and `null`. -/
def bracedAlternative {α : Type} (known : List (String × α)) (s : List Char) :
    Except Failure (α × List Char) :=
  match skipSpace s with
  | [] => .error ⟨.endIn .object, [], 0⟩
  | '"' :: r =>
    match alternative known r with
    | .error f => .error f
    | .ok (a, t) =>
      match skipColon t with
      | .error f => .error f
      | .ok u =>
        match (null "unit").read u with
        | .error f => .error f
        | .ok (_, v) =>
          match skipSpace v with
          | [] => .error ⟨.endIn .object, [], 0⟩
          | '\x7d' :: w => .ok (a, w)
          | w => .error ⟨.valueExpected, w, 0⟩
  | '\x7d' :: r => .error ⟨.valueExpected, '\x7d' :: r, 1⟩
  | r => .error ⟨.keyExpected, r, 1⟩

theorem length_of_bracedAlternative {α : Type} {known : List (String × α)} {s r : List Char}
    {a : α} (h : bracedAlternative known s = .ok (a, r)) : r.length < s.length := by
  have space := length_skipSpace_le s
  unfold bracedAlternative at h
  split at h
  · cases h
  · rename_i hs
    rw [hs, List.length_cons] at space
    split at h
    · cases h
    · rename_i ht
      have := length_of_alternative ht
      split at h
      · cases h
      · rename_i hu
        have := length_of_skipColon hu
        split at h
        · cases h
        · rename_i v hv
          have := Reader.shorter _ hv
          have := length_skipSpace_le v
          split at h
          · cases h
          · rename_i hw
            rw [hw, List.length_cons] at this
            cases h
            omega
          · cases h
  · cases h
  · cases h

/-- One of several named values: its name as a string, or an object that maps the name to `null`. -/
def oneOf {α : Type} (known : List (String × α)) : Reader α where
  read s :=
    match skipSpace s with
    | [] => .error ⟨.endInValue, [], 0⟩
    | '"' :: r => alternative known r
    | '\x7b' :: r => bracedAlternative known r
    | r => .error ⟨.valueExpected, r, 1⟩
  shorter := by
    intro s r x h
    have space := length_skipSpace_le s
    split at h
    · cases h
    · rename_i hr
      rw [hr] at space
      exact Nat.lt_of_lt_of_le (Nat.lt_succ_of_lt (length_of_alternative h)) space
    · rename_i hr
      rw [hr] at space
      exact Nat.lt_of_lt_of_le (Nat.lt_succ_of_lt (length_of_bracedAlternative h)) space
    · cases h

end Reader

/-! ## Lists -/

/-- The text from the next element of a list on, or nothing at the closing bracket. All but the
first element follow a comma. -/
def nextElement (first : Bool) (s : List Char) : Except Failure (Option (List Char)) :=
  match skipSpace s with
  | [] => .error ⟨.endIn .list, [], 0⟩
  | ']' :: _ => .ok none
  | c :: r =>
    if first then .ok (some (c :: r))
    else if c = ',' then
      match skipSpace r with
      | [] => .error ⟨.endInValue, [], 0⟩
      | ']' :: t => .error ⟨.trailingComma, ']' :: t, 1⟩
      | t => .ok (some t)
    else .error ⟨.separatorExpected .list, c :: r, 1⟩

theorem length_of_nextElement {first : Bool} {s r : List Char}
    (h : nextElement first s = .ok (some r)) : r.length ≤ s.length := by
  have space := length_skipSpace_le s
  unfold nextElement at h
  split at h
  · cases h
  · cases h
  · rename_i c t _ ht
    rw [ht] at space
    split at h
    · cases h; exact space
    · split at h
      · have := length_skipSpace_le t
        split at h
        · cases h
        · cases h
        · cases h
          exact Nat.le_trans this (Nat.le_of_lt space)
      · cases h

namespace Reader

/-- The elements of a list and the text after it, behind the elements read so far, which are kept
in reverse. -/
def elementsFrom {α : Type} (element : Reader α) (read : List α) (first : Bool) (s : List Char) :
    Except Failure (List α × List Char) :=
  match _hn : nextElement first s with
  | .error f => .error f
  | .ok none => .ok (read.reverse, (skipSpace s).drop 1)
  | .ok (some r) =>
    match _he : element.read r with
    | .error f => .error f
    | .ok (x, t) => elementsFrom element (x :: read) false t
termination_by s.length
decreasing_by exact Nat.lt_of_lt_of_le (element.shorter _he) (length_of_nextElement _hn)

theorem length_of_elementsFrom {α : Type} {element : Reader α} {read xs : List α} {first : Bool}
    {s r : List Char} (h : elementsFrom element read first s = .ok (xs, r)) :
    r.length ≤ s.length := by
  fun_induction elementsFrom element read first s with
  | case1 => cases h
  | case2 _ _ s =>
    cases h
    exact Nat.le_trans (by simp) (length_skipSpace_le s)
  | case3 => cases h
  | case4 _ _ _ _ hn _ _ he ih =>
    exact Nat.le_trans (ih h)
      (Nat.le_trans (Nat.le_of_lt (element.shorter he)) (length_of_nextElement hn))

/-- A list of values. -/
def list {α : Type} (element : Reader α) : Reader (List α) where
  read s :=
    match skipSpace s with
    | '[' :: r => elementsFrom element [] true r
    | r => .error (unexpected "a sequence" r)
  shorter := by
    intro s r x h
    have space := length_skipSpace_le s
    split at h
    · rename_i hr
      rw [hr] at space
      exact Nat.lt_of_lt_of_le (Nat.lt_succ_of_le (length_of_elementsFrom h)) space
    · cases h

end Reader

/-- The value that a whole text describes. -/
def decode {α : Type} (reader : Reader α) (source : List Char) : Except Error α :=
  match reader.read source with
  | .error f => .error (f.locate source)
  | .ok (x, r) =>
    match skipSpace r with
    | [] => .ok x
    | t => .error (Failure.locate source ⟨.trailingCharacters, t, 1⟩)

end TapeMachine.Json
