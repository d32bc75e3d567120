import TapeMachine.Json.Number
import TapeMachine.Proofs.Json.Grammar

/-!
# Numbers that are passed over

A number ends where no part of it can go on, so that passing over it takes exactly the number if what
follows begins with none of the characters of which its parts are made (`skipNumber_append`). In a JSON text a
number is followed by white space, a comma, a closing bracket or nothing (`Delimited`).
-/

namespace TapeMachine.Json

/-- A text that is empty or begins with one of the given characters. -/
def HeadIn (cs s : List Char) : Prop :=
  ∀ c, s.head? = some c → c ∈ cs

/-- What may follow a value in a text. -/
def Delimited (s : List Char) : Prop :=
  HeadIn delimiters s

theorem headIn_nil (cs : List Char) : HeadIn cs [] := by
  intro c hc
  cases hc

theorem headIn_cons {cs : List Char} {c : Char} (h : c ∈ cs) (s : List Char) : HeadIn cs (c :: s) := by
  intro d hd
  cases hd
  exact h

theorem HeadIn.mono {cs cs' s : List Char} (h : HeadIn cs s) (hcs : cs ⊆ cs') : HeadIn cs' s :=
  fun c hc => hcs (h c hc)

theorem HeadIn.ne_cons {cs s : List Char} (h : HeadIn cs s) {c : Char} (hc : c ∉ cs) (t : List Char) :
    s ≠ c :: t := by
  rintro rfl
  exact hc (h c rfl)

/-! ## Digits -/

theorem isDigit_iff {c : Char} : isDigit c = true ↔ '0' ≤ c ∧ c ≤ '9' := by
  rw [isDigit, Bool.and_eq_true, decide_eq_true_eq, decide_eq_true_eq]

theorem digits_eq_nil {cs s : List Char} (h : HeadIn cs s) (hcs : cs.any isDigit = false) :
    digits s = [] ∧ skipDigits s = s := by
  cases s with
  | nil => exact ⟨rfl, rfl⟩
  | cons c s =>
    have hc : ¬isDigit c = true := List.any_eq_false.mp hcs c (h c rfl)
    exact ⟨List.takeWhile_cons_of_neg hc, List.dropWhile_cons_of_neg hc⟩

theorem digits_append {cs ds r : List Char} (hds : Digits ds) (hr : HeadIn cs r)
    (hcs : cs.any isDigit = false) : digits (ds ++ r) = ds ∧ skipDigits (ds ++ r) = r := by
  have hdigits : ∀ c ∈ ds, isDigit c = true := fun c hc => isDigit_iff.mpr (hds.2 c hc)
  obtain ⟨hnil, hrest⟩ := digits_eq_nil hr hcs
  constructor
  · rw [digits, List.takeWhile_append_of_pos hdigits]
    show ds ++ digits r = ds
    rw [hnil, List.append_nil]
  · rw [skipDigits, List.dropWhile_append_of_pos hdigits]
    exact hrest

theorem Digits.exists_cons {s : List Char} (h : Digits s) :
    ∃ d t, s = d :: t ∧ isDigit d = true := by
  obtain ⟨d, t, rfl⟩ := List.exists_cons_of_ne_nil h.1
  exact ⟨d, t, rfl, isDigit_iff.mpr (h.2 d List.mem_cons_self)⟩

/-! ## The parts of a number -/

/-- What may follow the fraction of a number, and what may follow its integral part. -/
def afterFraction : List Char := 'e' :: 'E' :: delimiters

def afterIntegral : List Char := '.' :: afterFraction

theorem Exponent.headIn {s r : List Char} (h : Exponent s) (hr : Delimited r) :
    HeadIn afterFraction (s ++ r) := by
  rcases h with rfl | ⟨e, sign, ds, he, -, -, rfl⟩
  · exact HeadIn.mono hr (List.subset_cons_of_subset _ (List.subset_cons_self _ _))
  · apply headIn_cons
    simp only [List.mem_cons, List.not_mem_nil, or_false] at he
    rcases he with rfl | rfl <;> decide

theorem Fraction.headIn {s r : List Char} (h : Fraction s) (hr : HeadIn afterFraction r) :
    HeadIn afterIntegral (s ++ r) := by
  rcases h with rfl | ⟨ds, -, rfl⟩
  · exact hr.mono (List.subset_cons_self _ _)
  · exact headIn_cons (by decide) _

theorem skipSign_append {sign ds : List Char} (hsign : sign ∈ [[], ['+'], ['-']]) (hds : Digits ds)
    (r : List Char) : skipSign (sign ++ (ds ++ r)) = ds ++ r := by
  simp only [List.mem_cons, List.not_mem_nil, or_false] at hsign
  rcases hsign with rfl | rfl | rfl
  · obtain ⟨d, t, rfl, hd⟩ := hds.exists_cons
    unfold skipSign
    split
    · rename_i h
      cases h
      exact absurd hd (by decide)
    · rename_i h
      cases h
      exact absurd hd (by decide)
    · rfl
  · rfl
  · rfl

theorem skipExponent_append {s r : List Char} (h : Exponent s) (hr : Delimited r) :
    skipExponent (s ++ r) = .ok r := by
  rcases h with rfl | ⟨e, sign, ds, he, hsign, hds, rfl⟩
  · rw [List.nil_append, skipExponent]
    · exact fun t ht => HeadIn.ne_cons hr (by decide) t ht
    · exact fun t ht => HeadIn.ne_cons hr (by decide) t ht
  · have hdigits := digits_append hds hr (by decide)
    have hexponent : skipExponentDigits (sign ++ (ds ++ r)) = .ok r := by
      rw [skipExponentDigits, skipSign_append hsign hds, hdigits.1, hdigits.2, if_neg hds.1]
    simp only [List.mem_cons, List.not_mem_nil, or_false] at he
    rw [List.cons_append, List.append_assoc]
    rcases he with rfl | rfl
    · exact hexponent
    · exact hexponent

theorem skipFraction_append {f e r : List Char} (hf : Fraction f) (he : Exponent e) (hr : Delimited r) :
    skipFraction (f ++ (e ++ r)) = .ok r := by
  rcases hf with rfl | ⟨ds, hds, rfl⟩
  · rw [List.nil_append, skipFraction]
    · exact skipExponent_append he hr
    · exact fun t ht => (he.headIn hr).ne_cons (by decide) t ht
  · have hdigits := digits_append hds (he.headIn hr) (by decide)
    rw [List.cons_append, skipFraction, hdigits.1, hdigits.2, if_neg hds.1]
    exact skipExponent_append he hr

/-- A number is passed over. -/
theorem skipNumber_append {s r : List Char} (h : Unsigned s) (hr : Delimited r) :
    skipNumber (s ++ r) = .ok r := by
  obtain ⟨i, f, e, hi, hf, he, rfl⟩ := h
  have hfollows := hf.headIn (he.headIn hr)
  simp only [List.append_assoc]
  rcases hi with rfl | ⟨hi, hzero⟩
  · have hdigits := digits_eq_nil hfollows (by decide)
    rw [List.cons_append, List.nil_append, skipNumber, if_pos rfl, if_pos hdigits.1]
    exact skipFraction_append hf he hr
  · have hdigits := digits_append hi hfollows (by decide)
    obtain ⟨d, t, rfl, hd⟩ := hi.exists_cons
    have hd0 : d ≠ '0' := by
      rintro rfl
      exact hzero rfl
    have hskip : skipDigits (t ++ (f ++ (e ++ r))) = f ++ (e ++ r) := by
      rw [List.cons_append, skipDigits, List.dropWhile_cons_of_pos hd] at hdigits
      exact hdigits.2
    rw [List.cons_append, skipNumber, if_neg hd0, hd, if_pos rfl, hskip]
    exact skipFraction_append hf he hr

theorem not_mem_delimiters {c : Char} (h : isDigit c = true) : c ∉ delimiters := by
  have hnone : delimiters.any isDigit = false := by decide
  exact fun hc => List.any_eq_false.mp hnone c hc h

/-- A number begins with a digit. -/
theorem Unsigned.exists_cons {s : List Char} (h : Unsigned s) : ∃ d t, s = d :: t ∧ isDigit d = true := by
  obtain ⟨i, f, e, hi, -, -, rfl⟩ := h
  rcases hi with rfl | ⟨hi, -⟩
  · exact ⟨'0', f ++ e, rfl, by decide⟩
  · obtain ⟨d, t, rfl, hd⟩ := hi.exists_cons
    exact ⟨d, t ++ (f ++ e), rfl, hd⟩

end TapeMachine.Json
