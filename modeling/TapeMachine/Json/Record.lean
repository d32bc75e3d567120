import TapeMachine.Json.Reader

/-!
# Records

A record is read from an object, whose members may come in any order, or from a list with the
fields in their declared order. Members of other names are passed over; a name may not occur twice;
a field that is missing keeps its default, unless it is required. An object is refused for its first
missing field only when it is complete.
-/

namespace TapeMachine.Json

/-- A field of records of type `α`. -/
structure Field (α : Type) where
  name : String
  /-- A required field may not be missing. -/
  required : Bool
  /-- Reads the field's value, giving what sets it. -/
  setter : Reader (α → α)

/-- How records of type `α` are read. -/
structure RecordShape (α : Type) where
  /-- What messages call such a record. -/
  title : String
  fields : List (Field α)
  /-- The record whose fields all have their defaults. -/
  start : α

namespace Field

def mandatory {α β : Type} (name : String) (value : Reader β) (set : β → α → α) : Field α :=
  ⟨name, true, value.map set⟩

def defaulted {α β : Type} (name : String) (value : Reader β) (set : β → α → α) : Field α :=
  ⟨name, false, value.map set⟩

end Field

/-- The text of the next key of an object from after its opening quote on, or nothing at the closing
brace. All but the first member follow a comma. -/
def nextKey (first : Bool) (s : List Char) : Except Failure (Option (List Char)) :=
  match skipSpace s with
  | [] => .error ⟨.endIn .object, [], 0⟩
  | '\x7d' :: _ => .ok none
  | c :: r =>
    if first then
      if c = '"' then .ok (some r) else .error ⟨.keyExpected, c :: r, 1⟩
    else if c = ',' then
      match skipSpace r with
      | [] => .error ⟨.endInValue, [], 0⟩
      | '"' :: t => .ok (some t)
      | '\x7d' :: t => .error ⟨.trailingComma, '\x7d' :: t, 1⟩
      | t => .error ⟨.keyExpected, t, 1⟩
    else .error ⟨.separatorExpected .object, c :: r, 1⟩

theorem length_of_nextKey {first : Bool} {s r : List Char} (h : nextKey first s = .ok (some r)) :
    r.length < s.length := by
  have space := length_skipSpace_le s
  unfold nextKey at h
  split at h
  · cases h
  · cases h
  · rename_i c t _ ht
    rw [ht, List.length_cons] at space
    split at h
    · split at h
      · cases h; exact space
      · cases h
    · split at h
      · have inner := length_skipSpace_le t
        split at h
        · cases h
        · rename_i hu
          rw [hu, List.length_cons] at inner
          cases h
          omega
        · cases h
        · cases h
      · cases h

namespace RecordShape

variable {α : Type}

/-- The record of a complete object, given the names that occurred. -/
def finish (shape : RecordShape α) (seen : List String) (x : α) (s : List Char) :
    Except Failure (α × List Char) :=
  match shape.fields.find? fun f => f.required && !seen.contains f.name with
  | some f => .error ⟨.missingField f.name, s, 0⟩
  | none => .ok (x, s)

/-- The point of a duplicate key: after the white space behind it, and after the brace there. -/
def duplicate (name : String) (s : List Char) : Failure :=
  let r := skipSpace s
  ⟨.duplicateField name, r, if r.head? = some '\x7d' then 1 else 0⟩

/-- One member from after the opening quote of its key on: the names that have occurred after it,
the record and the rest. -/
def member (shape : RecordShape α) (seen : List String) (x : α) (s : List Char) :
    Except Failure (List String × α × List Char) :=
  match string s with
  | .error f => .error f
  | .ok (key, r) =>
    match shape.fields.find? fun f => f.name == String.ofList key with
    | none =>
      match skipColon r with
      | .error f => .error f
      | .ok t =>
        match skipValue t with
        | .error f => .error f
        | .ok u => .ok (seen, x, u)
    | some field =>
      if seen.contains field.name then .error (duplicate field.name r)
      else
        match skipColon r with
        | .error f => .error f
        | .ok t =>
          match field.setter.read t with
          | .error f => .error f
          | .ok (set, u) => .ok (field.name :: seen, set x, u)

theorem length_of_member {shape : RecordShape α} {seen seen' : List String} {x x' : α}
    {s r : List Char} (h : shape.member seen x s = .ok (seen', x', r)) :
    r.length < s.length := by
  unfold member at h
  split at h
  · cases h
  · rename_i hk
    have := length_of_string hk
    split at h
    · split at h
      · cases h
      · rename_i ht
        have := length_of_skipColon ht
        split at h
        · cases h
        · rename_i hu
          have := length_of_skipValue hu
          cases h
          omega
    · split at h
      · cases h
      · split at h
        · cases h
        · rename_i ht
          have := length_of_skipColon ht
          split at h
          · cases h
          · rename_i hu
            have := Reader.shorter _ hu
            cases h
            omega

/-- The members of an object and the text after it. -/
def members (shape : RecordShape α) (seen : List String) (x : α) (first : Bool) (s : List Char) :
    Except Failure (α × List Char) :=
  match _hk : nextKey first s with
  | .error f => .error f
  | .ok none => shape.finish seen x ((skipSpace s).drop 1)
  | .ok (some r) =>
    match _hm : shape.member seen x r with
    | .error f => .error f
    | .ok (seen, x, t) => members shape seen x false t
termination_by s.length
decreasing_by exact Nat.lt_trans (length_of_member _hm) (length_of_nextKey _hk)

theorem length_of_members {shape : RecordShape α} {seen : List String} {x y : α} {first : Bool}
    {s r : List Char} (h : shape.members seen x first s = .ok (y, r)) : r.length ≤ s.length := by
  fun_induction members shape seen x first s with
  | case1 => cases h
  | case2 _ _ _ s =>
    unfold finish at h
    split at h
    · cases h
    · cases h
      exact Nat.le_trans (by simp) (length_skipSpace_le s)
  | case3 => cases h
  | case4 _ _ _ _ _ hk _ _ _ hm ih =>
    exact Nat.le_of_lt
      (Nat.lt_of_le_of_lt (ih h) (Nat.lt_trans (length_of_member hm) (length_of_nextKey hk)))

/-- The text after a list in which all fields have been read. -/
def closeList (x : α) (s : List Char) : Except Failure (α × List Char) :=
  match skipSpace s with
  | [] => .error ⟨.endIn .list, [], 0⟩
  | ']' :: r => .ok (x, r)
  | ',' :: r =>
    let t := skipSpace r
    .error ⟨if t.head? = some ']' then .trailingComma else .trailingCharacters, t, 1⟩
  | r => .error ⟨.trailingCharacters, r, 1⟩

/-- The remaining fields of a record from the elements of a list. `index` fields come before
them. -/
def elements (shape : RecordShape α) (index : Nat) (x : α) (s : List Char) :
    List (Field α) → Except Failure (α × List Char)
  | [] => closeList x s
  | field :: fields =>
    match nextElement (index == 0) s with
    | .error f => .error f
    | .ok none =>
      if field.required then
        .error ⟨.wrongLength index shape.title shape.fields.length, (skipSpace s).drop 1, 0⟩
      else elements shape (index + 1) x s fields
    | .ok (some r) =>
      match field.setter.read r with
      | .error f => .error f
      | .ok (set, t) => elements shape (index + 1) (set x) t fields

theorem length_of_elements {shape : RecordShape α} {index : Nat} {x y : α} {s r : List Char}
    {fields : List (Field α)} (h : shape.elements index x s fields = .ok (y, r)) :
    r.length ≤ s.length := by
  induction fields generalizing index x s with
  | nil =>
    have space := length_skipSpace_le s
    unfold elements closeList at h
    split at h
    · cases h
    · rename_i hr
      rw [hr] at space
      cases h
      exact Nat.le_of_lt space
    · cases h
    · cases h
  | cons field fields ih =>
    unfold elements at h
    split at h
    · cases h
    · split at h
      · cases h
      · exact ih h
    · rename_i hn
      split at h
      · cases h
      · rename_i ht
        exact Nat.le_trans (ih h)
          (Nat.le_trans (Nat.le_of_lt (Reader.shorter _ ht)) (length_of_nextElement hn))

/-- Reads a record in either of its two forms. -/
def reader (shape : RecordShape α) : Reader α where
  read s :=
    match skipSpace s with
    | '\x7b' :: r => shape.members [] shape.start true r
    | '[' :: r => shape.elements 0 shape.start r shape.fields
    | r => .error (unexpected ("struct " ++ shape.title) r)
  shorter := by
    intro s r x h
    have space := length_skipSpace_le s
    split at h
    · rename_i hr
      rw [hr] at space
      exact Nat.lt_of_lt_of_le (Nat.lt_succ_of_le (length_of_members h)) space
    · rename_i hr
      rw [hr] at space
      exact Nat.lt_of_lt_of_le (Nat.lt_succ_of_le (length_of_elements h)) space
    · cases h

end RecordShape

end TapeMachine.Json
