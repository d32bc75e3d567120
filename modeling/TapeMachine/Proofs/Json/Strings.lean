import Mathlib.Tactic.IntervalCases
import TapeMachine.Proofs.Json.Grammar

/-!
# Strings as they are read

However a string is spelled, reading it gives its characters and passing over it leaves what follows
(`string_append`, `skipString_append`). Both go character by character: an escape of one letter, of one unit
or of a surrogate pair is read as the one character that it spells.
-/

namespace TapeMachine.Json

/-! ## Escapes -/

theorem hexDigit?_of_hexDigit {value : Nat} {c : Char} (h : HexDigit value c) :
    hexDigit? c = some value := by
  obtain ⟨hvalue, hc⟩ := h
  interval_cases value <;> rcases hc with rfl | rfl <;> decide

theorem hexUnit_append {value : Nat} {s : List Char} (h : HexUnit value s) (r : List Char) :
    hexUnit (s ++ r) = .ok (value, r) := by
  obtain ⟨a, b, c, d, ha, hb, hc, hd, rfl⟩ := h
  have hvalue : ((value / 0x1000 * 16 + value / 0x100 % 0x10) * 16 + value / 0x10 % 0x10) * 16 +
      value % 0x10 = value := by omega
  simp only [List.cons_append, List.nil_append, hexUnit, hexDigit?_of_hexDigit ha,
    hexDigit?_of_hexDigit hb, hexDigit?_of_hexDigit hc, hexDigit?_of_hexDigit hd, hvalue]

/-- A character is no half of a surrogate pair. -/
theorem not_isSurrogate (c : Char) : isTrailing c.toNat = false ∧ isLeading c.toNat = false := by
  have hvalid : c.toNat < 0xD800 ∨ (0xDFFF < c.toNat ∧ c.toNat < 0x110000) := c.valid
  constructor
  · rw [isTrailing, Bool.and_eq_false_iff, decide_eq_false_iff_not, decide_eq_false_iff_not]
    omega
  · rw [isLeading, Bool.and_eq_false_iff, decide_eq_false_iff_not, decide_eq_false_iff_not]
    omega

theorem unicodeEscape_unit {c : Char} {s : List Char} (h : HexUnit c.toNat s) (r : List Char) :
    unicodeEscape (s ++ r) = .ok (c, r) := by
  obtain ⟨htrailing, hleading⟩ := not_isSurrogate c
  simp only [unicodeEscape, hexUnit_append h, htrailing, hleading, Char.ofNat_toNat]
  rfl

theorem unicodeEscape_pair {c : Char} {s t : List Char} (hc : 0x10000 ≤ c.toNat)
    (hs : HexUnit (0xD800 + (c.toNat - 0x10000) / 0x400) s)
    (ht : HexUnit (0xDC00 + (c.toNat - 0x10000) % 0x400) t) (r : List Char) :
    unicodeEscape (s ++ '\\' :: 'u' :: (t ++ r)) = .ok (c, r) := by
  have hvalid : c.toNat < 0xD800 ∨ (0xDFFF < c.toNat ∧ c.toNat < 0x110000) := c.valid
  have hbound : (c.toNat - 0x10000) / 0x400 < 0x400 := by omega
  have hbound' : (c.toNat - 0x10000) % 0x400 < 0x400 := Nat.mod_lt _ (by omega)
  have hfirst : isTrailing (0xD800 + (c.toNat - 0x10000) / 0x400) = false := by
    rw [isTrailing, Bool.and_eq_false_iff, decide_eq_false_iff_not, decide_eq_false_iff_not]
    omega
  have hleading : isLeading (0xD800 + (c.toNat - 0x10000) / 0x400) = true := by
    rw [isLeading, Bool.and_eq_true, decide_eq_true_eq, decide_eq_true_eq]
    omega
  have hsecond : isTrailing (0xDC00 + (c.toNat - 0x10000) % 0x400) = true := by
    rw [isTrailing, Bool.and_eq_true, decide_eq_true_eq, decide_eq_true_eq]
    omega
  have hchar : ofSurrogates (0xD800 + (c.toNat - 0x10000) / 0x400)
      (0xDC00 + (c.toNat - 0x10000) % 0x400) = c := by
    have hnumber : 0x10000 + (0xD800 + (c.toNat - 0x10000) / 0x400 - 0xD800) * 0x400 +
        (0xDC00 + (c.toNat - 0x10000) % 0x400 - 0xDC00) = c.toNat := by omega
    rw [ofSurrogates, hnumber, Char.ofNat_toNat]
  simp only [unicodeEscape, hexUnit_append hs, hexUnit_append ht, hfirst, hleading, hsecond, hchar]
  rfl

theorem shortEscape?_of_mem {l c : Char} (h : (l, c) ∈ letters) :
    l ≠ 'u' ∧ shortEscape? l = some c := by
  simp only [letters, List.mem_cons, Prod.mk.injEq, List.not_mem_nil, or_false] at h
  rcases h with ⟨rfl, rfl⟩ | ⟨rfl, rfl⟩ | ⟨rfl, rfl⟩ | ⟨rfl, rfl⟩ | ⟨rfl, rfl⟩ | ⟨rfl, rfl⟩ |
    ⟨rfl, rfl⟩ | ⟨rfl, rfl⟩ <;> decide

theorem escape_letter {l c : Char} (h : (l, c) ∈ letters) (r : List Char) :
    escape (l :: r) = .ok (c, r) := by
  obtain ⟨hu, hl⟩ := shortEscape?_of_mem h
  simp only [escape, hu, if_false, hl]

theorem escape_unicode (s : List Char) : escape ('u' :: s) = unicodeEscape s := by
  rw [escape, if_pos rfl]

theorem isControl_eq_false {c : Char} (h : 0x20 ≤ c.toNat) : isControl c = false :=
  decide_eq_false (Nat.not_lt.mpr h)

/-! ## Reading -/

theorem stringFrom_quote (read r : List Char) : stringFrom read ('"' :: r) = .ok (read.reverse, r) := by
  rw [stringFrom]
  rfl

theorem stringFrom_escape {s r : List Char} {c : Char} (h : escape s = .ok (c, r)) (read : List Char) :
    stringFrom read ('\\' :: s) = stringFrom (c :: read) r := by
  rw [stringFrom, if_neg (by decide), if_pos rfl]
  split
  · rename_i f hf
    rw [h] at hf
    cases hf
  · rename_i c' r' hs
    rw [h] at hs
    cases hs
    rfl

theorem stringFrom_itself {c : Char} (hquote : c ≠ '"') (hslash : c ≠ '\\') (hc : 0x20 ≤ c.toNat)
    (read r : List Char) : stringFrom read (c :: r) = stringFrom (c :: read) r := by
  rw [stringFrom, if_neg hquote, if_neg hslash, isControl_eq_false hc]
  rfl

/-- One character is read. -/
theorem stringFrom_append {c : Char} {s : List Char} (h : SpellsChar c s) (read r : List Char) :
    stringFrom read (s ++ r) = stringFrom (c :: read) r := by
  cases h with
  | itself hquote hslash hc => exact stringFrom_itself hquote hslash hc read r
  | letter hl => exact stringFrom_escape (escape_letter hl r) read
  | unit hs =>
    simp only [List.cons_append]
    apply stringFrom_escape
    rw [escape_unicode]
    exact unicodeEscape_unit hs r
  | pair hc hs ht =>
    simp only [List.cons_append, List.append_assoc]
    apply stringFrom_escape
    rw [escape_unicode]
    exact unicodeEscape_pair hc hs ht r

theorem stringFrom_chars {cs s : List Char} (h : SpellsChars cs s) (read r : List Char) :
    stringFrom read (s ++ '"' :: r) = .ok (read.reverse ++ cs, r) := by
  induction h generalizing read with
  | nil =>
    rw [List.append_nil]
    exact stringFrom_quote read r
  | cons hc _ ih =>
    rw [List.append_assoc, stringFrom_append hc, ih, List.reverse_cons, List.append_assoc]
    rfl

/-- A string is read from after its opening quote on. -/
theorem string_append {x : String} {s : List Char} (h : SpellsChars x.toList s) (r : List Char) :
    string (s ++ '"' :: r) = .ok (x.toList, r) :=
  stringFrom_chars h [] r

/-! ## Passing over -/

theorem skipString_quote (r : List Char) : skipString ('"' :: r) = .ok r := by
  rw [skipString]

theorem skipString_letter {l c : Char} (h : (l, c) ∈ letters) (r : List Char) :
    skipString ('\\' :: l :: r) = skipString r := by
  obtain ⟨hu, hl⟩ := shortEscape?_of_mem h
  rw [skipString, if_neg hu, hl]
  rfl

theorem skipString_unit {value : Nat} {s : List Char} (h : HexUnit value s) (r : List Char) :
    skipString ('\\' :: 'u' :: (s ++ r)) = skipString r := by
  rw [skipString, if_pos rfl]
  split
  · rename_i f hf
    rw [hexUnit_append h] at hf
    cases hf
  · rename_i value' r' hs
    rw [hexUnit_append h] at hs
    cases hs
    rfl

theorem skipString_itself {c : Char} (hquote : c ≠ '"') (hslash : c ≠ '\\') (hc : 0x20 ≤ c.toNat)
    (r : List Char) : skipString (c :: r) = skipString r := by
  rw [skipString.eq_def]
  split
  · rename_i h
    cases h
  · rename_i h
    cases h
    exact absurd rfl hquote
  · rename_i h
    cases h
    exact absurd rfl hslash
  · rename_i h
    cases h
    exact absurd rfl hslash
  · rename_i h
    cases h
    rw [isControl_eq_false hc]
    rfl

/-- One character is passed over. -/
theorem skipString_char {c : Char} {s : List Char} (h : SpellsChar c s) (r : List Char) :
    skipString (s ++ r) = skipString r := by
  cases h with
  | itself hquote hslash hc => exact skipString_itself hquote hslash hc r
  | letter hl => exact skipString_letter hl r
  | unit hs => exact skipString_unit hs r
  | pair hc hs ht =>
    simp only [List.cons_append, List.append_assoc]
    rw [skipString_unit hs, skipString_unit ht]

/-- A string is passed over from after its opening quote on. -/
theorem skipString_append {cs s : List Char} (h : SpellsChars cs s) (r : List Char) :
    skipString (s ++ '"' :: r) = .ok r := by
  induction h with
  | nil => exact skipString_quote r
  | cons hc _ ih => rw [List.append_assoc, skipString_char hc, ih]

end TapeMachine.Json
