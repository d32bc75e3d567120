import TapeMachine.Json.Failure

/-!
# Tokens of JSON

White space, literals and strings, each as a function from a text to its first token and the rest.
Strings come in two forms: read for their characters, and passed over with only their grammar
checked. A string ends with its closing quote, so what follows is shorter than the text; the lemmas
that say so are what ends the loops built on these functions.
-/

namespace TapeMachine.Json

/-! ## White space and literals -/

/-- The four characters that may stand between tokens. -/
def isSpace (c : Char) : Bool :=
  c = ' ' || c = '\n' || c = '\t' || c = '\r'

/-- The text from its first token on. -/
def skipSpace (s : List Char) : List Char :=
  s.dropWhile isSpace

theorem length_skipSpace_le (s : List Char) : (skipSpace s).length ≤ s.length :=
  (List.dropWhile_suffix isSpace).length_le

/-- The rest of a text after the given letters. -/
def literal : (letters s : List Char) → Except Failure (List Char)
  | [], s => .ok s
  | _ :: _, [] => .error ⟨.endInValue, [], 0⟩
  | e :: es, c :: s => if c = e then literal es s else .error ⟨.literalExpected, c :: s, 1⟩

theorem length_of_literal {letters s r : List Char} (h : literal letters s = .ok r) :
    r.length ≤ s.length := by
  induction letters generalizing s with
  | nil => cases h; exact Nat.le_refl _
  | cons e es ih =>
    cases s with
    | nil => cases h
    | cons c s =>
      rw [literal] at h
      split at h
      · exact Nat.le_succ_of_le (ih h)
      · cases h

/-! ## Strings -/

/-- The value of a hexadecimal digit. -/
def hexDigit? (c : Char) : Option Nat :=
  if '0' ≤ c ∧ c ≤ '9' then some (c.toNat - '0'.toNat)
  else if 'a' ≤ c ∧ c ≤ 'f' then some (c.toNat - 'a'.toNat + 10)
  else if 'A' ≤ c ∧ c ≤ 'F' then some (c.toNat - 'A'.toNat + 10)
  else none

/-- The number written in four hexadecimal digits. Four bytes are looked at, whatever characters
they belong to. -/
def hexUnit (s : List Char) : Except Failure (Nat × List Char) :=
  match s with
  | a :: b :: c :: d :: r =>
    match hexDigit? a, hexDigit? b, hexDigit? c, hexDigit? d with
    | some a, some b, some c, some d => .ok (((a * 16 + b) * 16 + c) * 16 + d, r)
    | _, _, _, _ => .error ⟨.invalidEscape, s, 4⟩
  | _ => if byteCount s < 4 then .error ⟨.endInString, [], 0⟩ else .error ⟨.invalidEscape, s, 4⟩

theorem length_of_hexUnit {s r : List Char} {n : Nat} (h : hexUnit s = .ok (n, r)) :
    r.length < s.length := by
  unfold hexUnit at h
  split at h
  · split at h
    · cases h; simp only [List.length_cons]; omega
    · cases h
  · split at h <;> cases h

/-- Tells whether a code unit is the first half of a surrogate pair. -/
def isLeading (n : Nat) : Bool :=
  0xD800 ≤ n && n ≤ 0xDBFF

/-- Tells whether a code unit is the second half of a surrogate pair. -/
def isTrailing (n : Nat) : Bool :=
  0xDC00 ≤ n && n ≤ 0xDFFF

/-- The character that a pair of surrogates stands for. -/
def ofSurrogates (leading trailing : Nat) : Char :=
  Char.ofNat (0x10000 + (leading - 0xD800) * 0x400 + (trailing - 0xDC00))

/-- The character of an escape, from after its `u` on: one code unit, or a surrogate pair. -/
def unicodeEscape (s : List Char) : Except Failure (Char × List Char) :=
  match hexUnit s with
  | .error f => .error f
  | .ok (n, r) =>
    if isTrailing n then .error ⟨.loneSurrogate, r, 0⟩
    else if isLeading n then
      match r with
      | '\\' :: 'u' :: r =>
        match hexUnit r with
        | .error f => .error f
        | .ok (m, r) =>
          if isTrailing m then .ok (ofSurrogates n m, r) else .error ⟨.loneSurrogate, r, 0⟩
      | [] => .error ⟨.endInString, [], 0⟩
      | ['\\'] => .error ⟨.endInString, [], 0⟩
      | '\\' :: r => .error ⟨.unfinishedSurrogate, r, 1⟩
      | r => .error ⟨.unfinishedSurrogate, r, 1⟩
    else .ok (Char.ofNat n, r)

theorem length_of_unicodeEscape {s r : List Char} {c : Char} (h : unicodeEscape s = .ok (c, r)) :
    r.length < s.length := by
  unfold unicodeEscape at h
  split at h
  · cases h
  · rename_i n t ht
    have := length_of_hexUnit ht
    split at h
    · cases h
    · split at h
      · split at h
        · split at h
          · cases h
          · rename_i m u hu
            have := length_of_hexUnit hu
            split at h
            · simp only [Except.ok.injEq, Prod.mk.injEq] at h
              obtain ⟨-, rfl⟩ := h
              simp only [List.length_cons] at *
              omega
            · cases h
        all_goals cases h
      · simp only [Except.ok.injEq, Prod.mk.injEq] at h
        exact h.2 ▸ this

/-- The character that a letter stands for after a backslash. -/
def shortEscape? : Char → Option Char
  | '"' => some '"'
  | '\\' => some '\\'
  | '/' => some '/'
  | 'b' => some '\x08'
  | 'f' => some '\x0c'
  | 'n' => some '\n'
  | 'r' => some '\r'
  | 't' => some '\t'
  | _ => none

/-- The character of an escape, from after its backslash on. -/
def escape (s : List Char) : Except Failure (Char × List Char) :=
  match s with
  | [] => .error ⟨.endInString, [], 0⟩
  | c :: r =>
    if c = 'u' then unicodeEscape r
    else
      match shortEscape? c with
      | some d => .ok (d, r)
      | none => .error ⟨.invalidEscape, s, 1⟩

theorem length_of_escape {s r : List Char} {c : Char} (h : escape s = .ok (c, r)) :
    r.length < s.length := by
  unfold escape at h
  split at h
  · cases h
  · split at h
    · exact Nat.lt_succ_of_lt (length_of_unicodeEscape h)
    · split at h
      · cases h; exact Nat.lt_succ_self _
      · cases h

/-- Tells whether a character must not stand unescaped in a string. -/
def isControl (c : Char) : Bool :=
  c.toNat < 0x20

/-- The rest of a string from after its opening quote on, behind the characters read so far, which
are kept in reverse. -/
def stringFrom (read : List Char) (s : List Char) : Except Failure (List Char × List Char) :=
  match s with
  | [] => .error ⟨.endInString, [], 0⟩
  | c :: r =>
    if c = '"' then .ok (read.reverse, r)
    else if c = '\\' then
      match _h : escape r with
      | .error f => .error f
      | .ok (d, t) => stringFrom (d :: read) t
    else if isControl c then .error ⟨.controlCharacter, s, 1⟩
    else stringFrom (c :: read) r
termination_by s.length
decreasing_by
  · exact Nat.lt_succ_of_lt (length_of_escape _h)
  · exact Nat.lt_succ_self _

/-- The characters of a string from after its opening quote on, and what follows its closing
quote. -/
def string (s : List Char) : Except Failure (List Char × List Char) :=
  stringFrom [] s

theorem length_of_stringFrom {read s x r : List Char} (h : stringFrom read s = .ok (x, r)) :
    r.length < s.length := by
  fun_induction stringFrom read s with
  | case1 => cases h
  | case2 => cases h; exact Nat.lt_succ_self _
  | case3 => cases h
  | case4 _ _ _ _ _ _ ih =>
    exact Nat.lt_trans (ih h) (Nat.lt_succ_of_lt (length_of_escape (by assumption)))
  | case5 => cases h
  | case6 _ _ _ _ _ _ ih => exact Nat.lt_succ_of_lt (ih h)

theorem length_of_string {s x r : List Char} (h : string s = .ok (x, r)) : r.length < s.length :=
  length_of_stringFrom h

/-- What follows a string, from after its opening quote on. Surrogates need not be paired here. -/
def skipString (s : List Char) : Except Failure (List Char) :=
  match s with
  | [] => .error ⟨.endInString, [], 0⟩
  | '"' :: r => .ok r
  | ['\\'] => .error ⟨.endInString, [], 0⟩
  | '\\' :: c :: r =>
    if c = 'u' then
      match _h : hexUnit r with
      | .error f => .error f
      | .ok (_, t) => skipString t
    else if (shortEscape? c).isSome then skipString r
    else .error ⟨.invalidEscape, c :: r, 1⟩
  | c :: r => if isControl c then .error ⟨.controlCharacter, s, 0⟩ else skipString r
termination_by s.length
decreasing_by
  · have := length_of_hexUnit _h
    simp only [List.length_cons]; omega
  · simp only [List.length_cons]; omega
  · simp only [List.length_cons]; omega

theorem length_of_skipString {s r : List Char} (h : skipString s = .ok r) :
    r.length < s.length := by
  fun_induction skipString s with
  | case1 => cases h
  | case2 => cases h; exact Nat.lt_succ_self _
  | case3 => cases h
  | case4 => cases h
  | case5 _ _ _ he ih =>
    have := length_of_hexUnit he
    have := ih h
    simp only [List.length_cons]; omega
  | case6 _ _ _ _ ih =>
    have := ih h
    simp only [List.length_cons]; omega
  | case7 => cases h
  | case8 => cases h
  | case9 _ _ _ _ _ _ ih => exact Nat.lt_succ_of_lt (ih h)

end TapeMachine.Json
