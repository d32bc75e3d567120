import TapeMachine.Decimal.Layout
import TapeMachine.Json.Scan

/-!
# Numbers of JSON

A number without fraction and exponent that fits 64 bits is an integer; any other is a floating
point number. Its significand keeps the leading digits that fit 64 bits and is scaled by one
multiplication or division by a power of ten, so the last bit of a long number may be off; a number
too large for the format is refused, and one too small is zero.
-/

namespace TapeMachine.Json

inductive Number where
  | integer (value : Int)
  | floating (value : Float)

/-- How floating point numbers are shown: in positions from a hundred-thousandth up to sixteen
digits before the point. -/
def floatLayout : Decimal.Layout := ⟨-5, 15⟩

/-- A number as something found where another value is expected. -/
def Number.found : Number → Found
  | integer value => .integer value
  | floating value => .floating (floatLayout.text value)

def isDigit (c : Char) : Bool :=
  '0' ≤ c && c ≤ '9'

/-- The digits at the front of a text. -/
def digits (s : List Char) : List Char :=
  s.takeWhile isDigit

/-- The text after the digits at its front. -/
def skipDigits (s : List Char) : List Char :=
  s.dropWhile isDigit

theorem length_skipDigits_le (s : List Char) : (skipDigits s).length ≤ s.length :=
  (List.dropWhile_suffix isDigit).length_le

/-- The text after the sign of an exponent, which may be missing. -/
def skipSign : List Char → List Char
  | '+' :: r | '-' :: r => r
  | s => s

theorem length_skipSign_le (s : List Char) : (skipSign s).length ≤ s.length := by
  unfold skipSign
  split
  · exact Nat.le_succ _
  · exact Nat.le_succ _
  · exact Nat.le_refl _

def digitValue (c : Char) : Nat :=
  c.toNat - '0'.toNat

/-! ## Reading for the value -/

/-- Appends digits to a number while it stays within `limit`; the second part is the digits that no
longer fit, from the first of them on. -/
def absorb (limit : Nat) : (value : Nat) → (digits : List Char) → Nat × List Char
  | value, [] => (value, [])
  | value, c :: cs =>
    if value * 10 + digitValue c ≤ limit then absorb limit (value * 10 + digitValue c) cs
    else (value, c :: cs)

def significandLimit : Nat := 0xFFFFFFFFFFFFFFFF

def negativeLimit : Nat := 0x8000000000000000

/-- The greatest exponent that is read as a number. -/
def exponentLimit : Nat := 0x7FFFFFFF

/-- A power of ten as a floating point number, exact or nearest. -/
def powerOfTen (n : Nat) : Float :=
  Float.ofScientific 1 false n

/-- Divides by `10 ^ n`, in several steps where the power itself is out of range. -/
def scaleDown (x : Float) (n : Nat) : Float :=
  if n ≤ 308 then x / powerOfTen n
  else if x == 0.0 then x
  else scaleDown (x / powerOfTen 308) (n - 308)
termination_by n

/-- The number `significand * 10 ^ scale`, if it is in range. -/
def scaled? (significand : Nat) (scale : Int) : Option Float :=
  let x := (UInt64.ofNat significand).toFloat
  match scale with
  | .negSucc n => some (scaleDown x (n + 1))
  | .ofNat n =>
    if n ≤ 308 then
      let y := x * powerOfTen n
      if y.isInf then none else some y
    else if x == 0.0 then some x
    else none

def signed (negative : Bool) (x : Float) : Number :=
  .floating (if negative then -x else x)

/-- The number `significand * 10 ^ scale` with its sign, before the text `s`. -/
def scaledNumber (negative : Bool) (significand : Nat) (scale : Int) (s : List Char) :
    Except Failure (Number × List Char) :=
  match scaled? significand scale with
  | some x => .ok (signed negative x, s)
  | none => .error ⟨.numberOutOfRange, s, 0⟩

/-- A number from after the `e` of its exponent on. -/
def numberFromExponent (negative : Bool) (significand : Nat) (scale : Int) (s : List Char) :
    Except Failure (Number × List Char) :=
  let small := s.head? == some '-'
  match digits (skipSign s), skipDigits (skipSign s) with
  | [], [] => .error ⟨.endInValue, [], 0⟩
  | [], t => .error ⟨.invalidNumber, t, 1⟩
  | ds, t =>
    match absorb exponentLimit 0 ds with
    | (e, []) => scaledNumber negative significand (if small then scale - e else scale + e) t
    | (_, _ :: excess) =>
      if significand = 0 ∨ small then .ok (signed negative 0.0, t)
      else .error ⟨.numberOutOfRange, excess ++ t, 0⟩

/-- A number from after its fraction on: an exponent, or what follows the number. -/
def numberFromFraction (negative : Bool) (significand : Nat) (scale : Int) (s : List Char) :
    Except Failure (Number × List Char) :=
  match s with
  | 'e' :: r | 'E' :: r => numberFromExponent negative significand scale r
  | _ => scaledNumber negative significand scale s

/-- A number from after its integral digits on. `dropped` of those did not fit the significand. -/
def numberFromPoint (negative : Bool) (significand dropped : Nat) (s : List Char) :
    Except Failure (Number × List Char) :=
  match s with
  | '.' :: r =>
    match digits r, skipDigits r with
    | [], [] => .error ⟨.endInValue, [], 0⟩
    | [], t => .error ⟨.invalidNumber, t, 1⟩
    | ds, t =>
      let (value, excess) := absorb significandLimit significand ds
      numberFromFraction negative value ((dropped : Int) - (ds.length - excess.length : Nat)) t
  | 'e' :: r | 'E' :: r => numberFromExponent negative significand dropped r
  | _ =>
    if dropped ≠ 0 then scaledNumber negative significand dropped s
    else if ¬negative then .ok (.integer significand, s)
    else if significand = 0 ∨ negativeLimit < significand then
      .ok (signed negative (UInt64.ofNat significand).toFloat, s)
    else .ok (.integer (-significand), s)

/-- A number from its first digit on. -/
def number (negative : Bool) (s : List Char) : Except Failure (Number × List Char) :=
  match s with
  | [] => .error ⟨.endInValue, [], 0⟩
  | c :: r =>
    if c = '0' then
      if digits r = [] then numberFromPoint negative 0 0 r else .error ⟨.invalidNumber, r, 1⟩
    else if isDigit c then
      let (significand, excess) := absorb significandLimit 0 (digits s)
      numberFromPoint negative significand excess.length (skipDigits s)
    else .error ⟨.invalidNumber, s, 1⟩

/-! ## Passing over -/

/-- What follows an exponent, from after its `e` on. -/
def skipExponentDigits (s : List Char) : Except Failure (List Char) :=
  if digits (skipSign s) = [] then .error ⟨.invalidNumber, skipSign s, 1⟩
  else .ok (skipDigits (skipSign s))

def skipExponent (s : List Char) : Except Failure (List Char) :=
  match s with
  | 'e' :: r | 'E' :: r => skipExponentDigits r
  | _ => .ok s

/-- What follows a fraction and an exponent, each of which may be missing. -/
def skipFraction (s : List Char) : Except Failure (List Char) :=
  match s with
  | '.' :: r =>
    if digits r = [] then .error ⟨.invalidNumber, r, 1⟩ else skipExponent (skipDigits r)
  | _ => skipExponent s

/-- What follows a number, from its first digit on. -/
def skipNumber (s : List Char) : Except Failure (List Char) :=
  match s with
  | [] => .error ⟨.invalidNumber, [], 0⟩
  | c :: r =>
    if c = '0' then
      if digits r = [] then skipFraction r else .error ⟨.invalidNumber, r, 1⟩
    else if isDigit c then skipFraction (skipDigits r)
    else .error ⟨.invalidNumber, s, 1⟩

/-! ## Lengths -/

theorem length_of_scaledNumber {negative : Bool} {significand : Nat} {scale : Int}
    {s r : List Char} {n : Number} (h : scaledNumber negative significand scale s = .ok (n, r)) :
    r.length ≤ s.length := by
  unfold scaledNumber at h
  split at h
  · cases h; exact Nat.le_refl _
  · cases h

theorem length_of_numberFromExponent {negative : Bool} {significand : Nat} {scale : Int}
    {s r : List Char} {n : Number}
    (h : numberFromExponent negative significand scale s = .ok (n, r)) : r.length ≤ s.length := by
  unfold numberFromExponent at h
  have sign := length_skipSign_le s
  have digits := length_skipDigits_le (skipSign s)
  dsimp only at h
  split at h
  · cases h
  · cases h
  · split at h
    · have := length_of_scaledNumber h
      omega
    · split at h
      · cases h; omega
      · cases h

theorem length_of_numberFromFraction {negative : Bool} {significand : Nat} {scale : Int}
    {s r : List Char} {n : Number}
    (h : numberFromFraction negative significand scale s = .ok (n, r)) : r.length ≤ s.length := by
  unfold numberFromFraction at h
  split at h
  · exact Nat.le_succ_of_le (length_of_numberFromExponent h)
  · exact Nat.le_succ_of_le (length_of_numberFromExponent h)
  · exact length_of_scaledNumber h

theorem length_of_numberFromPoint {negative : Bool} {significand dropped : Nat}
    {s r : List Char} {n : Number}
    (h : numberFromPoint negative significand dropped s = .ok (n, r)) : r.length ≤ s.length := by
  unfold numberFromPoint at h
  split at h
  · rename_i t
    have := length_skipDigits_le t
    split at h
    · cases h
    · cases h
    · have := length_of_numberFromFraction h
      simp only [List.length_cons]; omega
  · exact Nat.le_succ_of_le (length_of_numberFromExponent h)
  · exact Nat.le_succ_of_le (length_of_numberFromExponent h)
  · split at h
    · exact length_of_scaledNumber h
    · split at h
      · cases h; exact Nat.le_refl _
      · split at h <;> (cases h; exact Nat.le_refl _)

/-- A number has at least one digit. -/
theorem length_of_number {negative : Bool} {s r : List Char} {n : Number}
    (h : number negative s = .ok (n, r)) : r.length < s.length := by
  unfold number at h
  split at h
  · cases h
  · rename_i c t
    split at h
    · split at h
      · exact Nat.lt_succ_of_le (length_of_numberFromPoint h)
      · cases h
    · split at h
      · rename_i hd
        have point := length_of_numberFromPoint h
        rw [show skipDigits (c :: t) = skipDigits t by simp [skipDigits, hd]] at point
        exact Nat.lt_succ_of_le (Nat.le_trans point (length_skipDigits_le t))
      · cases h

theorem length_of_skipExponent {s r : List Char} (h : skipExponent s = .ok r) :
    r.length ≤ s.length := by
  have digits (t : List Char) (h : skipExponentDigits t = .ok r) : r.length ≤ t.length := by
    unfold skipExponentDigits at h
    split at h
    · cases h
    · cases h
      exact Nat.le_trans (length_skipDigits_le _) (length_skipSign_le t)
  unfold skipExponent at h
  split at h
  · exact Nat.le_succ_of_le (digits _ h)
  · exact Nat.le_succ_of_le (digits _ h)
  · cases h; exact Nat.le_refl _

theorem length_of_skipFraction {s r : List Char} (h : skipFraction s = .ok r) :
    r.length ≤ s.length := by
  unfold skipFraction at h
  split at h
  · rename_i t
    split at h
    · cases h
    · have := length_of_skipExponent h
      have := length_skipDigits_le t
      simp only [List.length_cons]; omega
  · exact length_of_skipExponent h

/-- A number that is passed over has at least one digit. -/
theorem length_of_skipNumber {s r : List Char} (h : skipNumber s = .ok r) :
    r.length < s.length := by
  unfold skipNumber at h
  split at h
  · cases h
  · rename_i c t
    split at h
    · split at h
      · exact Nat.lt_succ_of_le (length_of_skipFraction h)
      · cases h
    · split at h
      · have := length_of_skipFraction h
        have := length_skipDigits_le t
        simp only [List.length_cons]; omega
      · cases h

end TapeMachine.Json
