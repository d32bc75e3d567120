import Mathlib.Data.List.Nodup
import TapeMachine.Proofs.Json.Numbers
import TapeMachine.Proofs.Json.Strings
import TapeMachine.Text.Quoted

/-!
# Reading quoted text

A quoted value can be read off any text that it begins, and so can a whole tuple (`Readable`,
`quotedTuple_append_inj`):

* inside a quotation every character is written in one of three forms (`Escapes`), and no form of one
  character is the beginning of a form of another (`Escapes.append_inj`);
* none of them begins with the delimiter, so that a quotation ends at the first one that is not escaped,
  whatever it quotes (`quoteIn_append_inj`);
* an integer has no delimiter: it ends where no digit follows, hence at the comma, the bracket or the space
  that comes after it in a message.

So the commas between the items of a tuple are told from the commas in its items.
-/

namespace TapeMachine

open Json (HeadIn)

namespace Text

/-- What ends where one of some characters follows can be split off. -/
theorem append_inj_of_headIn {cs s s' r r' : List Char} (hs : ∀ c ∈ s, c ∉ cs) (hs' : ∀ c ∈ s', c ∉ cs)
    (hr : HeadIn cs r) (hr' : HeadIn cs r') (h : s ++ r = s' ++ r') : s = s' ∧ r = r' := by
  induction s generalizing s' with
  | nil =>
    cases s' with
    | nil => exact ⟨rfl, h⟩
    | cons c s' => exact absurd h (hr.ne_cons (hs' c List.mem_cons_self) (s' ++ r'))
  | cons c s ih =>
    cases s' with
    | nil => exact absurd h.symm (hr'.ne_cons (hs c List.mem_cons_self) (s ++ r))
    | cons c' s' =>
      obtain ⟨rfl, htail⟩ := List.cons.inj h
      obtain ⟨rfl, rfl⟩ := ih (fun d hd => hs d (List.mem_cons_of_mem _ hd))
        (fun d hd => hs' d (List.mem_cons_of_mem _ hd)) htail
      exact ⟨rfl, rfl⟩

/-! ## Hexadecimal numbers -/

/-- The number that hexadecimal digits stand for. -/
def hexValue (digits : List Char) : Nat :=
  digits.foldl (fun value c => value * 16 + (Json.hexDigit? c).getD 0) 0

theorem hexDigit?_digitChar {d : Nat} (h : d < 16) : Json.hexDigit? (Nat.digitChar d) = some d :=
  Json.hexDigit?_of_hexDigit ⟨h, .inl rfl⟩

theorem hexValue_toDigits (n : Nat) : hexValue (Nat.toDigits 16 n) = n := by
  induction n using Nat.strong_induction_on with
  | _ n ih =>
    by_cases hn : n < 16
    · rw [Nat.toDigits_of_lt_base hn]
      simp [hexValue, hexDigit?_digitChar hn]
    · have hfront : hexValue (Nat.toDigits 16 (n / 16)) = n / 16 := ih (n / 16) (by omega)
      have hlast : Json.hexDigit? (Nat.digitChar (n % 16)) = some (n % 16) :=
        hexDigit?_digitChar (Nat.mod_lt _ (by decide))
      rw [Nat.toDigits_of_base_le (by decide) (Nat.not_lt.mp hn), hexValue, List.foldl_append]
      show hexValue (Nat.toDigits 16 (n / 16)) * 16 + _ = n
      rw [hfront, hlast]
      show n / 16 * 16 + n % 16 = n
      omega

theorem hexDigit?_ne_none_of_mem {n : Nat} {c : Char} (h : c ∈ Nat.toDigits 16 n) :
    Json.hexDigit? c ≠ none := by
  have hdigit : ∀ d < 16, Json.hexDigit? (Nat.digitChar d) ≠ none := by
    intro d hd
    rw [hexDigit?_digitChar hd]
    exact Option.some_ne_none d
  induction n using Nat.strong_induction_on with
  | _ n ih =>
    by_cases hn : n < 16
    · rw [Nat.toDigits_of_lt_base hn, List.mem_singleton] at h
      rw [h]
      exact hdigit n hn
    · rw [Nat.toDigits_of_base_le (by decide) (Nat.not_lt.mp hn)] at h
      rcases List.mem_append.mp h with hfront | hlast
      · exact ih (n / 16) (by omega) hfront
      · rw [List.mem_singleton.mp hlast]
        exact hdigit _ (Nat.mod_lt _ (by decide))

/-- The digits of a code point go up to the closing brace. -/
theorem codePointEscape_append_inj {c c' : Char} {r r' : List Char}
    (h : codePointEscape c ++ r = codePointEscape c' ++ r') : c = c' ∧ r = r' := by
  have hdigits : ∀ n, ∀ c ∈ Nat.toDigits 16 n, c ∉ ['\x7d'] := by
    intro n c hc hbrace
    rw [List.mem_singleton.mp hbrace] at hc
    exact hexDigit?_ne_none_of_mem hc (by decide)
  have hclosed (r : List Char) : HeadIn ['\x7d'] (['\x7d'] ++ r) :=
    Json.headIn_cons List.mem_cons_self r
  simp only [codePointEscape, List.append_assoc] at h
  obtain ⟨hcode, hrest⟩ := append_inj_of_headIn (hdigits _) (hdigits _) (hclosed r) (hclosed r')
    (List.append_cancel_left h)
  have hvalue := congrArg hexValue hcode
  rw [hexValue_toDigits, hexValue_toDigits] at hvalue
  exact ⟨Char.toNat_inj.mp hvalue, List.append_cancel_left hrest⟩

/-! ## Quotations -/

/-- The characters that quotations begin and end with. -/
def delimiters : List Char := ['\'', '"']

/-- The characters that have an escape of one letter, after the letter. -/
def letters (delimiter : Char) : List (Char × Char) :=
  [('0', '\x00'), ('t', '\t'), ('r', '\r'), ('n', '\n'), ('\\', '\\'), (delimiter, delimiter)]

/-- The forms of a character inside a quotation. -/
inductive Escapes (delimiter : Char) : Char → List Char → Prop
  | itself {c : Char} : c ≠ '\\' → c ≠ delimiter → Escapes delimiter c [c]
  | letter {l c : Char} : (l, c) ∈ letters delimiter → Escapes delimiter c ['\\', l]
  | codePoint (c : Char) : Escapes delimiter c (codePointEscape c)

theorem escapes_escapeIn (delimiter c : Char) : Escapes delimiter c (escapeIn delimiter c) := by
  unfold escapeIn
  split_ifs with hnul htab hreturn hnewline hself hunseen
  · subst hnul
    exact .letter (by simp [letters])
  · subst htab
    exact .letter (by simp [letters])
  · subst hreturn
    exact .letter (by simp [letters])
  · subst hnewline
    exact .letter (by simp [letters])
  · exact .letter (by simp [letters, hself])
  · exact .codePoint c
  · exact .itself (fun h => hself (.inl h)) (fun h => hself (.inr h))

/-- The letters differ from each other and from the one that introduces a code point. -/
theorem nodup_letters {d : Char} (hd : d ∈ delimiters) : ('u' :: (letters d).map Prod.fst).Nodup := by
  have hall : ∀ d ∈ delimiters, ('u' :: (letters d).map Prod.fst).Nodup := by
    simp [delimiters, letters]
  exact hall d hd

theorem letter_ne_u {d : Char} (hd : d ∈ delimiters) {l c : Char} (h : (l, c) ∈ letters d) :
    l ≠ 'u' := by
  intro hu
  have hmem : l ∈ (letters d).map Prod.fst := List.mem_map_of_mem h
  rw [hu] at hmem
  exact (List.nodup_cons.mp (nodup_letters hd)).1 hmem

theorem eq_of_letter {d : Char} (hd : d ∈ delimiters) {l c c' : Char} (h : (l, c) ∈ letters d)
    (h' : (l, c') ∈ letters d) : c = c' := by
  have hdistinct := (List.nodup_cons.mp (nodup_letters hd)).2
  have hsame : (l, c) = (l, c') := List.inj_on_of_nodup_map hdistinct h h' rfl
  exact (Prod.mk.inj hsame).2

/-- No form of a character is the beginning of a form of another. -/
theorem Escapes.append_inj {d : Char} (hd : d ∈ delimiters) {c c' : Char} {s s' r r' : List Char}
    (hs : Escapes d c s) (hs' : Escapes d c' s') (h : s ++ r = s' ++ r') : c = c' ∧ r = r' := by
  -- A backslash tells the escapes from the characters that stand for themselves, and the letter behind it
  -- tells them from each other.
  cases hs with
  | itself hslash _ =>
    cases hs' with
    | itself _ _ => exact List.cons.inj h
    | letter _ => exact absurd (List.cons.inj h).1 hslash
    | codePoint _ => exact absurd (List.cons.inj h).1 hslash
  | letter hl =>
    cases hs' with
    | itself hslash _ => exact absurd (List.cons.inj h).1.symm hslash
    | letter hl' =>
      obtain ⟨rfl, rfl⟩ := List.cons.inj (List.cons.inj h).2
      exact ⟨eq_of_letter hd hl hl', rfl⟩
    | codePoint _ => exact absurd (List.cons.inj (List.cons.inj h).2).1 (letter_ne_u hd hl)
  | codePoint =>
    cases hs' with
    | itself hslash _ => exact absurd (List.cons.inj h).1.symm hslash
    | letter hl' => exact absurd (List.cons.inj (List.cons.inj h).2).1.symm (letter_ne_u hd hl')
    | codePoint => exact codePointEscape_append_inj h

/-- The delimiter stands inside a quotation only behind a backslash. -/
theorem Escapes.append_ne_cons {d : Char} (hd : d ∈ delimiters) {c : Char} {s : List Char}
    (hs : Escapes d c s) (r r' : List Char) : s ++ r ≠ d :: r' := by
  have hslash : '\\' ≠ d := by
    rintro rfl
    exact absurd hd (by decide)
  intro h
  cases hs with
  | itself _ hne => exact hne (List.cons.inj h).1
  | letter _ => exact hslash (List.cons.inj h).1
  | codePoint _ => exact hslash (List.cons.inj h).1

/-- What is quoted goes up to the delimiter. -/
theorem flatMap_escapeIn_append_inj {d : Char} (hd : d ∈ delimiters) {cs cs' r r' : List Char}
    (h : cs.flatMap (escapeIn d) ++ d :: r = cs'.flatMap (escapeIn d) ++ d :: r') :
    cs = cs' ∧ r = r' := by
  induction cs generalizing cs' with
  | nil =>
    cases cs' with
    | nil => exact ⟨rfl, (List.cons.inj h).2⟩
    | cons c' cs' =>
      rw [List.flatMap_cons, List.append_assoc] at h
      exact absurd h.symm ((escapes_escapeIn d c').append_ne_cons hd _ r)
  | cons c cs ih =>
    rw [List.flatMap_cons, List.append_assoc] at h
    cases cs' with
    | nil => exact absurd h ((escapes_escapeIn d c).append_ne_cons hd _ r')
    | cons c' cs' =>
      rw [List.flatMap_cons, List.append_assoc] at h
      obtain ⟨rfl, htail⟩ := (escapes_escapeIn d c).append_inj hd (escapes_escapeIn d c') h
      obtain ⟨rfl, rfl⟩ := ih htail
      exact ⟨rfl, rfl⟩

theorem quoteIn_append_inj {d : Char} (hd : d ∈ delimiters) {cs cs' r r' : List Char}
    (h : quoteIn d cs ++ r = quoteIn d cs' ++ r') : cs = cs' ∧ r = r' := by
  simp only [quoteIn, List.cons_append, List.append_assoc, List.nil_append] at h
  exact flatMap_escapeIn_append_inj hd (List.cons.inj h).2

/-! ## What follows a value -/

/-- The characters that come after a quoted value in a message. -/
def followers : List Char := [',', ')', ' ']

/-- What may follow a quoted value. -/
def Ends (r : List Char) : Prop := HeadIn followers r

/-- What may follow a tuple. -/
def Closes (r : List Char) : Prop := HeadIn [')'] r

theorem Closes.ends {r : List Char} (h : Closes r) : Ends r :=
  h.mono (by decide)

theorem not_ends_cons {c : Char} (hc : c ∉ followers) (s : List Char) : ¬Ends (c :: s) :=
  fun h => hc (h c rfl)

end Text

open Text

/-- Values whose quoted form shows where it ends, and does not begin like what may follow one. -/
class Readable (α : Type) [Quoted α] : Prop where
  begins (x : α) (r : List Char) : ¬Ends ((quoted x).toList ++ r)
  append_inj {x y : α} {r s : List Char} : Ends r → Ends s →
    (quoted x).toList ++ r = (quoted y).toList ++ s → x = y ∧ r = s

/-! ## Values -/

theorem toList_quoted_char (c : Char) : (quoted c).toList = quoteIn '\'' [c] :=
  String.toList_ofList

theorem toList_quoted_string (s : String) : (quoted s).toList = quoteIn '"' s.toList :=
  String.toList_ofList

instance : Readable Char where
  begins c r := by
    rw [toList_quoted_char]
    exact not_ends_cons (by decide) _
  append_inj _ _ h := by
    rw [toList_quoted_char, toList_quoted_char] at h
    obtain ⟨hquoted, hrest⟩ := quoteIn_append_inj (by decide) h
    exact ⟨List.singleton_inj.mp hquoted, hrest⟩

instance : Readable String where
  begins s r := by
    rw [toList_quoted_string]
    exact not_ends_cons (by decide) _
  append_inj _ _ h := by
    rw [toList_quoted_string, toList_quoted_string] at h
    obtain ⟨hquoted, hrest⟩ := quoteIn_append_inj (by decide) h
    exact ⟨String.toList_inj.mp hquoted, hrest⟩

theorem quoted_int_eq (n : Int) : quoted n = n.repr :=
  Int.toString_eq_repr

theorem toList_quoted_int_ne_nil (n : Int) : (quoted n).toList ≠ [] := by
  rw [quoted_int_eq, Int.repr_eq_if]
  split <;> simp

/-- An integer is made of digits and a sign. -/
theorem not_mem_followers_of_mem_quoted {n : Int} {c : Char} (h : c ∈ (quoted n).toList) :
    c ∉ followers := by
  have hdigits : ∀ m : Nat, c ∈ m.repr.toList → c ∉ followers := by
    intro m hm hfollows
    rw [Nat.toList_repr] at hm
    have hdigit : c.isDigit = true := Nat.isDigit_of_mem_toDigits (by decide) (by decide) hm
    have hnone : ∀ c ∈ followers, c.isDigit = false := by simp [followers]
    rw [hnone c hfollows] at hdigit
    cases hdigit
  rw [quoted_int_eq, Int.repr_eq_if] at h
  split at h
  · exact hdigits _ h
  · rw [String.toList_append] at h
    rcases List.mem_append.mp h with hsign | hnumber
    · obtain rfl : c = '-' := by simpa using hsign
      decide
    · exact hdigits _ hnumber

/-- A number is what its digits stand for. -/
theorem natRepr_inj {m n : Nat} (h : m.repr = n.repr) : m = n := by
  have hdigits : Nat.toDigits 10 m = Nat.toDigits 10 n := by
    rw [← Nat.toList_repr, ← Nat.toList_repr, h]
  have hvalue := congrArg (Nat.ofDigitChars 10 · 0) hdigits
  simpa only [Nat.ofDigitChars_ten_toDigits] using hvalue

theorem natRepr_ne_neg (m n : Nat) : m.repr ≠ "-" ++ n.repr := by
  intro h
  have hsign : '-' ∈ Nat.toDigits 10 m := by
    rw [← Nat.toList_repr, h, String.toList_append]
    exact List.mem_cons_self
  exact absurd (Nat.isDigit_of_mem_toDigits (by decide) (by decide) hsign) (by decide)

theorem intRepr_inj {m n : Int} (h : m.repr = n.repr) : m = n := by
  rw [Int.repr_eq_if, Int.repr_eq_if] at h
  split_ifs at h with hm hn hn
  · have hvalue := natRepr_inj h
    omega
  · exact absurd h (natRepr_ne_neg _ _)
  · exact absurd h.symm (natRepr_ne_neg _ _)
  · have hvalue := natRepr_inj (String.append_right_inj "-" |>.mp h)
    omega

instance : Readable Int where
  begins n r := by
    obtain ⟨c, s, hcs⟩ := List.exists_cons_of_ne_nil (toList_quoted_int_ne_nil n)
    have hc : c ∈ (quoted n).toList := by simp [hcs]
    rw [hcs]
    exact not_ends_cons (not_mem_followers_of_mem_quoted hc) (s ++ r)
  append_inj hr hs h := by
    obtain ⟨hquoted, hrest⟩ := append_inj_of_headIn (fun _ => not_mem_followers_of_mem_quoted)
      (fun _ => not_mem_followers_of_mem_quoted) hr hs h
    rw [String.toList_inj, quoted_int_eq, quoted_int_eq] at hquoted
    exact ⟨intRepr_inj hquoted, hrest⟩

/-! ## Tuples -/

section Tuples

variable {α : Type} [Quoted α]

/-- What a tuple goes on with after its first item. -/
def laterItems (xs : List α) : List Char :=
  xs.flatMap fun x => ',' :: (quoted x).toList

theorem toList_quotedTuple_cons (x : α) (xs : List α) :
    (quotedTuple (x :: xs)).toList = (quoted x).toList ++ laterItems xs := by
  induction xs generalizing x with
  | nil => simp [quotedTuple, laterItems]
  | cons y xs ih =>
    have hsplit : quotedTuple (x :: y :: xs) = quoted x ++ "," ++ quotedTuple (y :: xs) :=
      String.intercalate_cons_cons
    rw [hsplit, String.toList_append, String.toList_append, ih y, List.append_assoc]
    rfl

theorem ends_laterItems {r : List Char} (hr : Closes r) (xs : List α) :
    Ends (laterItems xs ++ r) := by
  cases xs with
  | nil => exact hr.ends
  | cons x xs => exact Json.headIn_cons (by decide) _

variable [Readable α] {xs ys : List α} {r s : List Char}

theorem laterItems_append_inj (hr : Closes r) (hs : Closes s)
    (h : laterItems xs ++ r = laterItems ys ++ s) : xs = ys ∧ r = s := by
  induction xs generalizing ys with
  | nil =>
    cases ys with
    | nil => exact ⟨rfl, h⟩
    | cons y ys => exact absurd h (hr.ne_cons (by decide) _)
  | cons x xs ih =>
    cases ys with
    | nil => exact absurd h.symm (hs.ne_cons (by decide) _)
    | cons y ys =>
      simp only [laterItems, List.flatMap_cons, List.cons_append, List.append_assoc] at h
      obtain ⟨rfl, htail⟩ := Readable.append_inj (ends_laterItems hr xs) (ends_laterItems hs ys)
        (List.cons.inj h).2
      obtain ⟨rfl, rfl⟩ := ih htail
      exact ⟨rfl, rfl⟩

theorem not_ends_quotedTuple_cons (x : α) (xs : List α) (r : List Char) :
    ¬Ends ((quotedTuple (x :: xs)).toList ++ r) := by
  rw [toList_quotedTuple_cons, List.append_assoc]
  exact Readable.begins x _

/-- A tuple that a bracket closes can be read, also one without items. -/
theorem quotedTuple_append_inj (hr : Closes r) (hs : Closes s)
    (h : (quotedTuple xs).toList ++ r = (quotedTuple ys).toList ++ s) : xs = ys ∧ r = s := by
  cases xs with
  | nil =>
    cases ys with
    | nil => exact ⟨rfl, List.append_cancel_left h⟩
    | cons y ys =>
      -- no value begins with the bracket that follows the empty tuple
      refine absurd ?_ (not_ends_quotedTuple_cons y ys s)
      rw [← h]
      exact hr.ends
  | cons x xs =>
    cases ys with
    | nil =>
      refine absurd ?_ (not_ends_quotedTuple_cons x xs r)
      rw [h]
      exact hs.ends
    | cons y ys =>
      rw [toList_quotedTuple_cons, toList_quotedTuple_cons, List.append_assoc, List.append_assoc] at h
      obtain ⟨rfl, htail⟩ := Readable.append_inj (ends_laterItems hr xs) (ends_laterItems hs ys) h
      obtain ⟨rfl, rfl⟩ := laterItems_append_inj hr hs htail
      exact ⟨rfl, rfl⟩

theorem quotedTuple_injective : Function.Injective (quotedTuple : List α → String) := by
  intro xs ys h
  have hnil : Closes [] := Json.headIn_nil _
  exact (quotedTuple_append_inj hnil hnil (by rw [h])).1

/-- A quote and a backslash as symbols. -/
example : quotedTuple ['\'', '\\'] = "'\\'','\\\\'" := by
  decide

end Tuples

end TapeMachine
