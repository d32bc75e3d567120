import Mathlib.Data.List.DropRight
import TapeMachine.Json.Skip
import TapeMachine.Proofs.Json.Numbers
import TapeMachine.Proofs.Json.Strings

/-!
# Values that are passed over

The walk over a value ends behind it, whatever its depth (`walk_spells`): by induction on its text, where the
brackets that are open around it stay as they are. So a value is passed over exactly
(`skipValue_spells`).
-/

namespace TapeMachine.Json

/-! ## The beginning of a value -/

/-- Tells whether a value can begin with a character. -/
def Value.opens : Value → Char → Bool
  | .null, c => c == 'n'
  | .boolean value, c => c == if value then 't' else 'f'
  | .number _, c => c == '-' || isDigit c
  | .text _, c => c == '"'
  | .list _, c => c == '['
  | .object _, c => c == '\x7b'

theorem Spells.exists_opens {v : Value} {s : List Char} (h : Spells v s) :
    ∃ c t, s = c :: t ∧ v.opens c = true := by
  cases h with
  | number hn =>
    obtain ⟨d, t, rfl, hd⟩ := hn.exists_cons
    exact ⟨d, t, rfl, by rw [Value.opens, hd, Bool.or_true]⟩
  | text hx =>
    obtain ⟨t, -, rfl⟩ := hx
    exact ⟨_, _, rfl, rfl⟩
  | _ => exact ⟨_, _, rfl, rfl⟩

theorem Spells.opens {v : Value} {c : Char} {s r t : List Char} (h : Spells v s)
    (hs : s ++ r = c :: t) : v.opens c = true := by
  obtain ⟨c', s', rfl, hc⟩ := h.exists_opens
  cases hs
  exact hc

theorem Value.eq_null_of_opens {v : Value} (h : v.opens 'n' = true) : v = .null := by
  cases v with
  | null => rfl
  | boolean value => cases value <;> cases h
  | _ => cases h

theorem Value.exists_text_of_opens {v : Value} (h : v.opens '"' = true) : ∃ x, v = .text x := by
  cases v with
  | text x => exact ⟨x, rfl⟩
  | boolean value => cases value <;> cases h
  | _ => cases h

theorem Value.exists_list_of_opens {v : Value} (h : v.opens '[' = true) : ∃ vs, v = .list vs := by
  cases v with
  | list vs => exact ⟨vs, rfl⟩
  | boolean value => cases value <;> cases h
  | _ => cases h

theorem Value.exists_object_of_opens {v : Value} (h : v.opens '\x7b' = true) :
    ∃ ms, v = .object ms := by
  cases v with
  | object ms => exact ⟨ms, rfl⟩
  | boolean value => cases value <;> cases h
  | _ => cases h

/-- A value begins with a character that does not end one. -/
theorem Spells.exists_cons {v : Value} {s : List Char} (h : Spells v s) :
    ∃ c t, s = c :: t ∧ c ∉ delimiters := by
  obtain ⟨c, t, rfl, hc⟩ := h.exists_opens
  refine ⟨c, t, rfl, ?_⟩
  cases v with
  | number =>
    rcases Bool.or_eq_true_iff.mp hc with hminus | hdigit
    · rw [beq_iff_eq.mp hminus]
      decide
    · exact not_mem_delimiters hdigit
  | boolean value =>
    rw [beq_iff_eq.mp hc]
    cases value <;> decide
  | _ =>
    rw [beq_iff_eq.mp hc]
    decide

/-- White space before a value is passed over. -/
theorem Spells.skipSpace_eq {v : Value} {a s : List Char} (h : Spells v s) (ha : Blank a)
    (r : List Char) : skipSpace (a ++ (s ++ r)) = s ++ r := by
  obtain ⟨c, t, rfl, hc⟩ := h.exists_cons
  exact skipSpace_blank_cons ha (not_mem_spaces hc) (t ++ r)

/-- What follows a text between brackets or quotes follows the closing one. -/
theorem enclosed_append (opening closing : Char) (s r : List Char) :
    opening :: (s ++ [closing]) ++ r = opening :: (s ++ closing :: r) := by
  rw [List.cons_append, List.append_assoc]
  rfl

theorem skipSpace_skipSpace (s : List Char) : skipSpace (skipSpace s) = skipSpace s :=
  List.dropWhile_idempotent _ _

/-- What follows white space before a delimiter begins with white space or that delimiter. -/
theorem delimited_blank {a : List Char} (ha : Blank a) {s : List Char} (hs : Delimited s) :
    Delimited (a ++ s) := by
  cases a with
  | nil => exact hs
  | cons c a => exact headIn_cons (List.mem_append_left _ (ha c List.mem_cons_self)) (a ++ s)

/-! ## One round of the walk -/

/-- The walk from a point on. -/
def resume (p : WalkPoint) : Except Failure (List Char) :=
  walk p.1 p.2.1 p.2.2

theorem walk_value (outer : List Bracket) (s : List Char) :
    walk .value outer s = stepValue outer s >>= resume := by
  rw [walk]
  split
  · rename_i f hf
    rw [hf]
    rfl
  · rename_i hp
    rw [hp]
    rfl

theorem walk_separator (b : Bracket) (outer : List Bracket) (s : List Char) :
    walk .separator (b :: outer) s = stepSeparator b outer s >>= resume := by
  rw [walk]
  split
  · rename_i f hf
    rw [hf]
    rfl
  · rename_i hp
    rw [hp]
    rfl

theorem walk_blank {a : List Char} (ha : Blank a) (outer : List Bracket) (s : List Char) :
    walk .value outer (a ++ s) = walk .value outer s := by
  rw [walk_value, walk_value, stepValue, stepValue, skipSpace_blank ha]

theorem walk_skipSpace (outer : List Bracket) (s : List Char) :
    walk .value outer (skipSpace s) = walk .value outer s := by
  rw [walk_value, walk_value, stepValue, stepValue, skipSpace_skipSpace]

theorem walk_separator_blank {a : List Char} (ha : Blank a) (b : Bracket) (outer : List Bracket)
    (s : List Char) : walk .separator (b :: outer) (a ++ s) = walk .separator (b :: outer) s := by
  rw [walk_separator, walk_separator, stepSeparator, stepSeparator, skipSpace_blank ha]

/-- A closing bracket ends the value it belongs to. -/
theorem walk_closer {a : List Char} (ha : Blank a) (b : Bracket) (outer : List Bracket)
    (r : List Char) : walk .separator (b :: outer) (a ++ b.closer :: r) = walk .separator outer r := by
  have hspace : b.closer ∉ spaces := by cases b <;> decide
  have hcomma : b.closer ≠ ',' := by cases b <;> decide
  rw [walk_separator, stepSeparator, skipSpace_blank_cons ha hspace]
  simp only [hcomma, if_false, if_true]
  rfl

/-- A comma leads to the next item. -/
theorem walk_comma {a : List Char} (ha : Blank a) (b : Bracket) (outer : List Bracket) (r : List Char) :
    walk .separator (b :: outer) (a ++ ',' :: r) = enterItem b outer r >>= resume := by
  rw [walk_separator, stepSeparator, skipSpace_blank_cons ha (by decide)]
  simp only [if_true]

/-! ## Values without parts -/

theorem skipScalar_digit {c : Char} (h : isDigit c = true) (s : List Char) :
    skipScalar (c :: s) = skipNumber (c :: s) := by
  have hne : ∀ d, isDigit d = false → c ≠ d := by
    rintro d hd rfl
    rw [hd] at h
    cases h
  rw [skipScalar.eq_7 _ _ (hne _ (by decide)) (hne _ (by decide)) (hne _ (by decide))
    (hne _ (by decide)) (hne _ (by decide)), if_pos h]

theorem walk_scalar {c : Char} {s r : List Char} (hspace : c ∉ spaces) (hlist : c ≠ '[')
    (hobject : c ≠ '\x7b') (h : skipScalar (c :: s) = .ok r) (outer : List Bracket) :
    walk .value outer (c :: s) = walk .separator outer r := by
  have hstep : stepValue outer (c :: s) = .ok (.separator, outer, r) := by
    rw [stepValue, skipSpace_cons hspace]
    split
    · rename_i hs
      cases hs
      exact absurd rfl hlist
    · rename_i hs
      cases hs
      exact absurd rfl hobject
    · rw [h]
  rw [walk_value, hstep]
  rfl

theorem walk_number {s r : List Char} (h : Unsigned s) (hr : Delimited r) (outer : List Bracket) :
    walk .value outer (s ++ r) = walk .separator outer r := by
  have hskip := skipNumber_append h hr
  obtain ⟨d, t, rfl, hd⟩ := h.exists_cons
  have hlist : d ≠ '[' := by
    rintro rfl
    cases hd
  have hobject : d ≠ '\x7b' := by
    rintro rfl
    cases hd
  have hspace : d ∉ spaces := not_mem_spaces (not_mem_delimiters hd)
  exact walk_scalar hspace hlist hobject ((skipScalar_digit hd (t ++ r)).trans hskip) outer

/-! ## Into a list or an object -/

theorem walk_list (outer : List Bracket) (s : List Char) :
    walk .value outer ('[' :: s) = enter .list outer s >>= resume := by
  rw [walk_value, stepValue, skipSpace_cons (by decide)]
  rfl

theorem walk_object (outer : List Bracket) (s : List Char) :
    walk .value outer ('\x7b' :: s) = enter .object outer s >>= resume := by
  rw [walk_value, stepValue, skipSpace_cons (by decide)]
  rfl

/-- Nothing but white space between the brackets. -/
theorem enter_empty {a : List Char} (ha : Blank a) (b : Bracket) (outer : List Bracket)
    (r : List Char) : enter b outer (a ++ b.closer :: r) = .ok (.separator, outer, r) := by
  have hspace : b.closer ∉ spaces := by cases b <;> decide
  rw [enter, skipSpace_blank_cons ha hspace]
  exact if_pos rfl

theorem enterItem_skipSpace (b : Bracket) (outer : List Bracket) (s : List Char) :
    enterItem b outer (skipSpace s) >>= resume = enterItem b outer s >>= resume := by
  cases b with
  | list => exact walk_skipSpace (.list :: outer) s
  | object => rw [enterItem, enterItem, skipSpace_skipSpace]

/-- Something other than the closing bracket is an item. -/
theorem enter_item (b : Bracket) {s t : List Char} {c : Char} (hs : skipSpace s = c :: t)
    (hc : c ≠ b.closer) (outer : List Bracket) :
    enter b outer s >>= resume = enterItem b outer s >>= resume := by
  have henter : enter b outer s = enterItem b outer (skipSpace s) := by
    rw [enter, hs]
    exact if_neg hc
  rw [henter, enterItem_skipSpace]

theorem skipColon_append {a : List Char} (ha : Blank a) (r : List Char) :
    skipColon (a ++ ':' :: r) = .ok r := by
  rw [skipColon, skipSpace_blank_cons ha (by decide)]
  rfl

/-- The key of a member is passed over, with the colon behind it. -/
theorem enterItem_key {k : String} {a key b : List Char} (ha : Blank a) (hkey : SpellsString k key)
    (hb : Blank b) (outer : List Bracket) (r : List Char) :
    enterItem .object outer (a ++ (key ++ (b ++ ':' :: r))) = .ok (.value, .object :: outer, r) := by
  obtain ⟨t, ht, rfl⟩ := hkey
  simp only [List.cons_append, List.append_assoc, List.nil_append]
  rw [enterItem, skipSpace_blank_cons ha (by decide)]
  simp only [skipString_append ht, skipColon_append hb]

/-- An item begins with a character that is no closing bracket. -/
theorem SpellsItems.skipSpace_eq {vs : List Value} {s : List Char} (h : SpellsItems vs s)
    (r : List Char) : ∃ c t, skipSpace (s ++ r) = c :: t ∧ c ≠ ']' := by
  have hne : ∀ {c : Char}, c ∉ delimiters → c ≠ ']' := by
    rintro c hc rfl
    exact hc (by decide)
  cases h with
  | last ha hv hb =>
    obtain ⟨c, t, rfl, hc⟩ := hv.exists_cons
    simp only [List.append_assoc, List.cons_append]
    exact ⟨c, _, skipSpace_blank_cons ha (not_mem_spaces hc) _, hne hc⟩
  | cons ha hv hb hvs =>
    obtain ⟨c, t, rfl, hc⟩ := hv.exists_cons
    simp only [List.append_assoc, List.cons_append]
    exact ⟨c, _, skipSpace_blank_cons ha (not_mem_spaces hc) _, hne hc⟩

theorem SpellsMember.skipSpace_eq {m : String × Value} {s : List Char} (h : SpellsMember m s)
    (r : List Char) : ∃ t, skipSpace (s ++ r) = '"' :: t := by
  cases h with
  | mk ha hkey =>
    obtain ⟨t, -, rfl⟩ := hkey
    simp only [List.append_assoc, List.cons_append]
    exact ⟨_, skipSpace_blank_cons ha (by decide) _⟩

theorem SpellsMembers.skipSpace_eq {ms : List (String × Value)} {s : List Char}
    (h : SpellsMembers ms s) (r : List Char) : ∃ t, skipSpace (s ++ r) = '"' :: t := by
  cases h with
  | last hm => exact hm.skipSpace_eq r
  | cons hm =>
    obtain ⟨t, ht⟩ := hm.skipSpace_eq _
    refine ⟨t, ?_⟩
    rw [List.append_assoc]
    exact ht

/-! ## Whole values -/

-- By recursion on the text: a value may hold lists and objects, whose items are values again. The
-- brackets around a value are the same before and behind it.
mutual

/-- The walk over a value ends behind it. -/
theorem walk_spells : ∀ {v : Value} {s r : List Char}, Spells v s → Delimited r →
    ∀ outer, walk .value outer (s ++ r) = walk .separator outer r
  | _, _, _, .nullLiteral, _, outer => walk_scalar (by decide) (by decide) (by decide) rfl outer
  | _, _, _, .trueLiteral, _, outer => walk_scalar (by decide) (by decide) (by decide) rfl outer
  | _, _, _, .falseLiteral, _, outer => walk_scalar (by decide) (by decide) (by decide) rfl outer
  | _, _, _, .number hs, hr, outer => walk_number hs hr outer
  | _, _, r, .negative (s := s) hs, hr, outer => by
    have hskip : skipScalar ('-' :: (s ++ r)) = .ok r := skipNumber_append hs hr
    exact walk_scalar (by decide) (by decide) (by decide) hskip outer
  | _, _, r, .text ⟨t, ht, hs⟩, _, outer => by
    subst hs
    have hskip : skipScalar ('"' :: (t ++ '"' :: r)) = .ok r := skipString_append ht r
    rw [enclosed_append]
    exact walk_scalar (by decide) (by decide) (by decide) hskip outer
  | _, _, r, .emptyList ha, _, outer => by
    rw [enclosed_append, walk_list]
    exact congrArg (· >>= resume) (enter_empty ha .list outer r)
  | _, _, r, .list hs, _, outer => by
    obtain ⟨c, t, hc, hcloser⟩ := hs.skipSpace_eq (']' :: r)
    rw [enclosed_append, walk_list]
    calc enter .list outer (_ ++ ']' :: r) >>= resume
      _ = enterItem .list outer (_ ++ ']' :: r) >>= resume := enter_item .list hc hcloser outer
      _ = walk .separator outer r := walk_items hs outer r
  | _, _, r, .emptyObject ha, _, outer => by
    rw [enclosed_append, walk_object]
    exact congrArg (· >>= resume) (enter_empty ha .object outer r)
  | _, _, r, .object hs, _, outer => by
    obtain ⟨t, ht⟩ := hs.skipSpace_eq ('\x7d' :: r)
    rw [enclosed_append, walk_object]
    calc enter .object outer (_ ++ '\x7d' :: r) >>= resume
      _ = enterItem .object outer (_ ++ '\x7d' :: r) >>= resume := enter_item .object ht (by decide) outer
      _ = walk .separator outer r := walk_members hs outer r

theorem walk_items : ∀ {vs : List Value} {s : List Char}, SpellsItems vs s →
    ∀ outer r, walk .value (.list :: outer) (s ++ ']' :: r) = walk .separator outer r
  | _, _, .last ha hv hb, outer, r => by
    have hclose : Delimited (']' :: r) := headIn_cons (by decide) r
    simp only [List.append_assoc]
    rw [walk_blank ha, walk_spells hv (delimited_blank hb hclose)]
    exact walk_closer hb .list outer r
  | _, _, .cons (t := t) ha hv hb hvs, outer, r => by
    have hcomma : Delimited (',' :: (t ++ ']' :: r)) := headIn_cons (by decide) _
    simp only [List.append_assoc, List.cons_append]
    rw [walk_blank ha, walk_spells hv (delimited_blank hb hcomma), walk_comma hb]
    exact walk_items hvs outer r

theorem walk_member : ∀ {m : String × Value} {s r : List Char}, SpellsMember m s → Delimited r →
    ∀ outer, enterItem .object outer (s ++ r) >>= resume = walk .separator (.object :: outer) r
  | _, _, r, .mk (c := c) (s := s) (d := d) ha hkey hb hc hv hd, hr, outer => by
    simp only [List.append_assoc, List.cons_append]
    rw [enterItem_key ha hkey hb]
    calc walk .value (.object :: outer) (c ++ (s ++ (d ++ r)))
      _ = walk .value (.object :: outer) (s ++ (d ++ r)) := walk_blank hc _ _
      _ = walk .separator (.object :: outer) (d ++ r) := walk_spells hv (delimited_blank hd hr) _
      _ = walk .separator (.object :: outer) r := walk_separator_blank hd _ _ r

theorem walk_members : ∀ {ms : List (String × Value)} {s : List Char}, SpellsMembers ms s →
    ∀ outer r, enterItem .object outer (s ++ '\x7d' :: r) >>= resume = walk .separator outer r
  | _, _, .last hm, outer, r => by
    have hclose : Delimited ('\x7d' :: r) := headIn_cons (by decide) r
    rw [walk_member hm hclose]
    exact walk_closer blank_nil .object outer r
  | _, _, .cons (t := t) hm hms, outer, r => by
    have hcomma : Delimited (',' :: (t ++ '\x7d' :: r)) := headIn_cons (by decide) _
    rw [List.append_assoc, List.cons_append, walk_member hm hcomma]
    exact (walk_comma blank_nil .object outer _).trans (walk_members hms outer r)

end

/-- A value is passed over, with the white space in front of it. -/
theorem skipValue_spells {v : Value} {s u r : List Char} (hv : Spells v s) (hu : skipSpace u = s ++ r)
    (hr : Delimited r) : skipValue u = .ok r := by
  rw [skipValue, ← walk_skipSpace, hu, walk_spells hv hr, walk]

end TapeMachine.Json
