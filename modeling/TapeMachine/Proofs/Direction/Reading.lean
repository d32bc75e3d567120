import Mathlib.Data.List.Nodup
import TapeMachine.Proofs.Program.Building

/-!
# Reading direction texts

A direction text spells directions by a token for each of them, with separators anywhere between
(`DirectionTokens.Spells`). A text can be spelled in some tokens and not be read back: where a token is
itself a separator, or where two tokens are the same. The main statement, `read_as_spelled`, says that these
are the only ways, so that the check of the tokens is exactly the condition for reading every text as it is
spelled; it says of every text, also in tokens that are refused, what is read of it and which character is
reported; and it compares the usual tokens and letters with the canonical tokens.
-/

namespace TapeMachine

namespace Direction

/-- The characters of a text that are not separators. -/
def tokensOf (text : String) : List Char :=
  text.toList.filter fun c => !isSeparator c

/-- The canonical token for a letter. All other characters stand for themselves. -/
def canonicalToken : Char → Char
  | 'L' | 'l' => '<'
  | 'R' | 'r' => '>'
  | 'S' | 's' => '-'
  | c => c

end Direction

open Direction

namespace DirectionTokens

/-- The texts that spell directions: a token for each, and separators before, between and after them. -/
inductive Spells (t : DirectionTokens) : List Direction → List Char → Prop
  | done : Spells t [] []
  | separator {c : Char} {ds : List Direction} {text : List Char} :
      isSeparator c = true → Spells t ds text → Spells t ds (c :: text)
  | token (d : Direction) {ds : List Direction} {text : List Char} :
      Spells t ds text → Spells t (d :: ds) (t.token d :: text)

variable {t : DirectionTokens} {text : String} {ds : List Direction}

/-! ## Single tokens -/

theorem token_mem_all (t : DirectionTokens) (d : Direction) : t.token d ∈ t.all := by
  cases d <;> simp [token, all]

/-- What a character is read as has this character as its token. -/
theorem token_of_ofToken? {c : Char} {d : Direction} (h : t.ofToken? c = some d) :
    t.token d = c := by
  unfold ofToken? at h
  split at h
  · cases h
    exact Eq.symm ‹c = t.left›
  · split at h
    · cases h
      exact Eq.symm ‹c = t.right›
    · split at h
      · cases h
        exact Eq.symm ‹c = t.stay›
      · cases h

/-- Of tokens that differ each is read as its own direction, and only of such. -/
theorem ofToken?_token_iff : (∀ d, t.ofToken? (t.token d) = some d) ↔ t.all.Nodup := by
  constructor
  · intro h
    have hinj : Function.Injective t.token := by
      intro d d' hd
      have hread := h d
      rw [hd, h d'] at hread
      exact (Option.some.inj hread).symm
    show ([Direction.left, .right, .stay].map t.token).Nodup
    exact List.Nodup.map hinj (by decide)
  · intro h d
    simp only [all, List.nodup_cons, List.mem_cons, List.not_mem_nil, or_false, not_or] at h
    obtain ⟨⟨hright, hstay⟩, hrest, -⟩ := h
    cases d with
    | left => simp [token, ofToken?]
    | right => simp [token, ofToken?, Ne.symm hright]
    | stay => simp [token, ofToken?, Ne.symm hstay, Ne.symm hrest]

theorem validate_eq_ok_iff :
    t.validate = .ok () ↔ (∀ d, isSeparator (t.token d) = false) ∧ t.all.Nodup := by
  have hall : (∀ c ∈ t.all, isSeparator c = false) ↔ ∀ d, isSeparator (t.token d) = false := by
    constructor
    · intro h d
      exact h _ (t.token_mem_all d)
    · intro h
      simp only [all, List.forall_mem_cons, List.not_mem_nil, false_implies, implies_true, and_true]
      exact ⟨h .left, h .right, h .stay⟩
  rw [← hall, validate_eq, checked_eq_ok_iff]
  simp [faults]

/-! ## Whole texts -/

theorem parse_eq (t : DirectionTokens) (text : String) :
    t.parse text =
      checked ((text.toList.filter fun c => !isSeparator c && decide (c ∉ t.all)).map
        .invalidDirection) ((tokensOf text).filterMap t.ofToken?) := by
  have hunread : ((tokensOf text).filter fun c => (t.ofToken? c).isNone) =
      text.toList.filter fun c => !isSeparator c && decide (c ∉ t.all) := by
    rw [tokensOf, List.filter_filter]
    have hunread (c : Char) : (t.ofToken? c).isNone = decide (c ∉ t.all) := by
      rw [Bool.eq_iff_iff, Option.isNone_iff_eq_none, ofToken?_eq_none_iff, decide_eq_true_eq]
    simp only [hunread, Bool.and_comm]
  rw [← hunread]
  exact parseWith_eq t.ofToken? text.toList

/-- Characters that are all tokens are read one by one, and written back as they were. -/
theorem map_token_filterMap {cs : List Char} (h : ∀ c ∈ cs, c ∈ t.all) :
    (cs.filterMap t.ofToken?).map t.token = cs := by
  induction cs with
  | nil => rfl
  | cons c cs ih =>
    obtain ⟨hc, hcs⟩ := List.forall_mem_cons.mp h
    cases hd : t.ofToken? c with
    | none => exact absurd hc (ofToken?_eq_none_iff.mp hd)
    | some d =>
      rw [List.filterMap_cons_some hd, List.map_cons, token_of_ofToken? hd, ih hcs]

theorem parse_eq_ok_iff :
    t.parse text = .ok ds ↔
      (∀ c ∈ text.toList, isSeparator c = false → c ∈ t.all) ∧
        ds = (tokensOf text).filterMap t.ofToken? := by
  rw [parse_eq, checked_eq_ok_iff]
  simp

/-- The first character that is neither a separator nor a token is the one reported. -/
theorem parse_eq_error_iff {f : Fault} :
    t.parse text = .error f ↔ ∃ before c after, text.toList = before ++ c :: after ∧
      (∀ x ∈ before, isSeparator x = true ∨ x ∈ t.all) ∧
        isSeparator c = false ∧ c ∉ t.all ∧ f = .invalidDirection c := by
  rw [parse_eq, checked_eq_error_iff, List.head?_map, List.head?_filter, Option.map_eq_some_iff]
  constructor
  · rintro ⟨c, hfirst, rfl⟩
    obtain ⟨hc, before, after, htext, hbefore⟩ := List.find?_eq_some_iff_append.mp hfirst
    simp only [Bool.and_eq_true, Bool.not_eq_true', decide_eq_true_eq] at hc
    refine ⟨before, c, after, htext, ?_, hc.1, hc.2, rfl⟩
    intro x hx
    have hskipped := hbefore x hx
    by_cases hseparator : isSeparator x = true
    · exact .inl hseparator
    · exact .inr (by simpa [hseparator] using hskipped)
  · rintro ⟨before, c, after, htext, hbefore, hseparator, htoken, rfl⟩
    refine ⟨c, List.find?_eq_some_iff_append.mpr ⟨?_, before, after, htext, ?_⟩, rfl⟩
    · simp [hseparator, htoken]
    · intro x hx
      rcases hbefore x hx with hx | hx <;> simp [hx]

/-- Every text that spells directions is read as them exactly if every token is read as its direction and
none is left out. -/
theorem valid_iff_reads :
    ((∀ d, isSeparator (t.token d) = false) ∧ ∀ d, t.ofToken? (t.token d) = some d) ↔
      ∀ ds text, t.Spells ds text.toList → t.parse text = .ok ds := by
  constructor
  · rintro ⟨hkept, hread⟩ ds text hspells
    have htokens : (∀ c ∈ text.toList, isSeparator c = false → c ∈ t.all) ∧
        ds = (tokensOf text).filterMap t.ofToken? := by
      unfold tokensOf
      -- along the text, whatever it is a part of
      generalize text.toList = chars at hspells
      induction hspells with
      | done => simp
      | separator hc _ ih => simpa [hc, ← ih.2] using ih.1
      | token d _ ih =>
        refine ⟨List.forall_mem_cons.mpr ⟨fun _ => t.token_mem_all d, ih.1⟩, ?_⟩
        rw [List.filter_cons_of_pos (by simp [hkept]), List.filterMap_cons_some (hread d), ← ih.2]
    exact parse_eq_ok_iff.mpr htokens
  · intro h
    -- a single token is enough of a text
    have hsingle (d : Direction) : t.parse (String.ofList [t.token d]) = .ok [d] := by
      apply h
      rw [String.toList_ofList]
      exact .token d .done
    have hkept (d : Direction) : isSeparator (t.token d) = false := by
      obtain ⟨-, hds⟩ := parse_eq_ok_iff.mp (hsingle d)
      cases hd : isSeparator (t.token d) with
      | false => rfl
      | true => simp [tokensOf, hd] at hds
    refine ⟨hkept, fun d => ?_⟩
    obtain ⟨-, hds⟩ := parse_eq_ok_iff.mp (hsingle d)
    rw [tokensOf, String.toList_ofList, List.filter_cons_of_pos (by simp [hkept]),
      List.filter_nil] at hds
    cases hread : t.ofToken? (t.token d) with
    | none => simp [hread] at hds
    | some d' => simp_all

end DirectionTokens

/-! ## The usual tokens and letters -/

namespace Direction

theorem canonicalToken_of_some {c : Char} {d : Direction} (h : ofToken? c = some d) :
    canonicalToken c = d.token := by
  unfold ofToken? at h
  split at h <;> cases h <;> rfl

theorem canonicalToken_of_none {c : Char} (h : ofToken? c = none) : canonicalToken c = c := by
  unfold canonicalToken
  split
  case h_7 => rfl
  all_goals exact absurd h (by decide)

theorem isSeparator_of_some {c : Char} {d : Direction} (h : ofToken? c = some d) :
    isSeparator c = false := by
  unfold ofToken? at h
  split at h <;> cases h <;> decide

/-- Neither a letter nor its canonical token is left out. -/
theorem isSeparator_canonicalToken (c : Char) : isSeparator (canonicalToken c) = isSeparator c := by
  cases hc : ofToken? c with
  | some d =>
    rw [canonicalToken_of_some hc, isSeparator_of_some hc]
    exact isSeparator_of_some d.ofToken?_token
  | none => rw [canonicalToken_of_none hc]

/-- A letter is read as its canonical token is. -/
theorem ofToken?_canonicalToken (c : Char) :
    DirectionTokens.canonical.ofToken? (canonicalToken c) = ofToken? c := by
  cases hc : ofToken? c with
  | some d =>
    rw [canonicalToken_of_some hc]
    cases d <;> rfl
  | none =>
    rw [canonicalToken_of_none hc, DirectionTokens.ofToken?_eq_none_iff]
    intro hmem
    -- a canonical token is read
    simp only [DirectionTokens.all, DirectionTokens.canonical, List.mem_cons, List.not_mem_nil,
      or_false] at hmem
    rcases hmem with rfl | rfl | rfl <;> simp at hc

/-- The usual tokens and letters are read as the canonical tokens that they stand for. -/
theorem parse_eq_canonical (text : String) :
    parse text = DirectionTokens.canonical.parse (text.map canonicalToken) := by
  have htokens : ((text.toList.map canonicalToken).filter fun c => !isSeparator c) =
      (tokensOf text).map canonicalToken := by
    rw [List.filter_map]
    simp only [Function.comp_def, isSeparator_canonicalToken]
    rfl
  unfold DirectionTokens.parse
  rw [parse, parseWith, parseWith, String.toList_map, htokens, List.mapM_map]
  show (tokensOf text).mapM _ = (tokensOf text).mapM _
  congr 1
  funext c
  simp only [Function.comp_apply, readWith, ofToken?_canonicalToken]
  cases hc : ofToken? c with
  | some d => rfl
  | none => rw [canonicalToken_of_none hc]

end Direction

/-- The check of the tokens is passed exactly if every text is read as it is spelled, whatever it spells. In
any tokens, a text is read exactly if it has nothing but tokens and separators, and then as one direction for
each token, which it is written back from; of any other the first character that is neither is reported. And
the usual tokens and letters are read as the canonical tokens that they stand for. -/
theorem DirectionTokens.read_as_spelled (t : DirectionTokens) :
    (t.validate = .ok () ↔ ∀ ds text, t.Spells ds text.toList → t.parse text = .ok ds) ∧
      (∀ text,
        ((∃ ds, t.parse text = .ok ds) ↔
          ∀ c ∈ text.toList, isSeparator c = false → c ∈ t.all) ∧
        (∀ ds, t.parse text = .ok ds →
          ds.length = (tokensOf text).length ∧ ds.map t.token = tokensOf text) ∧
        ∀ f, t.parse text = .error f ↔ ∃ before c after, text.toList = before ++ c :: after ∧
          (∀ x ∈ before, isSeparator x = true ∨ x ∈ t.all) ∧
            isSeparator c = false ∧ c ∉ t.all ∧ f = .invalidDirection c) ∧
      ∀ text, Direction.parse text = canonical.parse (text.map canonicalToken) := by
  refine ⟨?_, fun text => ⟨?_, ?_, fun f => parse_eq_error_iff⟩, parse_eq_canonical⟩
  · rw [validate_eq_ok_iff, ← ofToken?_token_iff]
    exact valid_iff_reads
  · constructor
    · rintro ⟨ds, hparse⟩
      exact (parse_eq_ok_iff.mp hparse).1
    · intro h
      exact ⟨_, parse_eq_ok_iff.mpr ⟨h, rfl⟩⟩
  · intro ds hparse
    obtain ⟨hknown, rfl⟩ := parse_eq_ok_iff.mp hparse
    have hback : ((tokensOf text).filterMap t.ofToken?).map t.token = tokensOf text := by
      apply map_token_filterMap
      intro c hc
      obtain ⟨hmem, hkept⟩ := List.mem_filter.mp hc
      exact hknown c hmem (by simpa using hkept)
    have hlength := congrArg List.length hback
    rw [List.length_map] at hlength
    exact ⟨hlength, hback⟩

/-- Of equal tokens the first counts, and separators are left out. -/
example : (⟨'a', 'a', 'b'⟩ : DirectionTokens).parse " b,a" = .ok [.stay, .left] := by
  rfl

end TapeMachine
