import Mathlib.Data.List.DropRight
import Mathlib.Data.List.GetD
import TapeMachine.Proofs.Tape.Unbounded

/-!
# Contents without the blanks around them

What is left of a row of cells without the blanks at its two ends (`Trimmed`) is there exactly once
(`trimmed_iff`). It does not depend on how many blanks are stored: two tapes that stand for one tape
without ends have the same content (`Tape.trimmed_of_unbounded_eq`), and two stacks that stand for one
stack without a bottom have the same items above their blanks (`Stack.items_of_unbounded_eq`). Contents with
more blanks make tapes and stacks of that kind (`Tape.unbounded_ofList_append`,
`Stack.unbounded_ofList_append`).
-/

namespace TapeMachine

variable {α : Type}

/-- A list without the blanks at its two ends. -/
structure Trimmed (blank : α) (l core : List α) : Prop where
  around : ∃ front back, l = List.replicate front blank ++ core ++ List.replicate back blank
  head : core.head? ≠ some blank
  last : core.getLast? ≠ some blank

/-- More blanks at the ends of a list change nothing. -/
theorem Trimmed.pad {blank : α} {l core : List α} (h : Trimmed blank l core) (front back : Nat) :
    Trimmed blank (List.replicate front blank ++ l ++ List.replicate back blank) core := by
  obtain ⟨front', back', rfl⟩ := h.around
  refine ⟨⟨front + front', back' + back, ?_⟩, h.head, h.last⟩
  simp only [List.replicate_add, List.append_assoc]

/-- Lists that go on with the same blanks differ by blanks at their ends. -/
theorem exists_replicate_of_getD_eq {blank : α} {l l' : List α}
    (h : ∀ n, l.getD n blank = l'.getD n blank) :
    ∃ core i j, l = core ++ List.replicate i blank ∧ l' = core ++ List.replicate j blank := by
  have hlonger : ∀ l l' : List α, (∀ n, l.getD n blank = l'.getD n blank) →
      l.length ≤ l'.length → l' = l ++ List.replicate (l'.length - l.length) blank := by
    intro l l' h hle
    apply List.ext_getElem
    · rw [List.length_append, List.length_replicate]
      omega
    · intro n hn _
      have hsymbol := h n
      rw [List.getD_eq_getElem _ _ hn] at hsymbol
      by_cases hshort : n < l.length
      · rw [List.getElem_append_left hshort, ← hsymbol, List.getD_eq_getElem _ _ hshort]
      · have hge : l.length ≤ n := Nat.le_of_not_lt hshort
        rw [List.getElem_append_right hge, List.getElem_replicate, ← hsymbol,
          List.getD_eq_default _ _ hge]
  rcases Nat.le_total l.length l'.length with hle | hle
  · exact ⟨l, 0, _, (List.append_nil l).symm, hlonger l l' h hle⟩
  · exact ⟨l', _, 0, hlonger l' l (fun n => (h n).symm) hle, (List.append_nil l').symm⟩

/-! ## Contents with more blanks -/

theorem getD_append_replicate (l : List α) (n i : Nat) (blank : α) :
    (l ++ List.replicate n blank).getD i blank = l.getD i blank := by
  rcases Nat.lt_or_ge i l.length with hlt | hge
  · rw [List.getD_append _ _ _ _ hlt]
  · rw [List.getD_append_right _ _ _ _ hge, List.getD_eq_default _ _ hge]
    exact List.getElem?_getD_replicate_default_eq blank n (i - l.length)

/-- The tape that goes on with blanks, by the content that it is made of. -/
theorem Tape.unbounded_ofList (marks : Marks α) (content : List α) :
    (ofList marks content).unbounded marks.blank = fun
      | .ofNat n => content.getD n marks.blank
      | .negSucc _ => marks.blank := by
  funext i
  rcases i with n | n
  · refine (unbounded_ofNat _ marks.blank n).trans ?_
    cases content with
    | nil => cases n <;> rfl
    | cons c content => rfl
  · rw [unbounded_negSucc]
    cases content <;> rfl

/-- Blanks after the content of a tape are not seen. -/
theorem Tape.unbounded_ofList_append (marks : Marks α) (content : List α) (n : Nat) :
    (ofList marks (content ++ List.replicate n marks.blank)).unbounded marks.blank =
      (ofList marks content).unbounded marks.blank := by
  rw [unbounded_ofList, unbounded_ofList]
  funext i
  rcases i with i | i
  · exact getD_append_replicate content n i marks.blank
  · rfl

/-- Blanks at the bottom of a stack are not seen. -/
theorem Stack.unbounded_ofList_append (marks : Marks α) (content : List α) (n : Nat) :
    (ofList marks (List.replicate n marks.blank ++ content)).unbounded marks.blank =
      (ofList marks content).unbounded marks.blank := by
  funext i
  simp only [unbounded, items_ofList, List.reverse_append, List.reverse_replicate,
    getD_append_replicate]

variable [DecidableEq α] {blank : α}

/-! ## Dropping blanks -/

theorem dropWhile_replicate_append (blank : α) (n : Nat) (l : List α) :
    (List.replicate n blank ++ l).dropWhile (· = blank) = l.dropWhile (· = blank) := by
  apply List.dropWhile_append_of_pos
  intro c hc
  exact decide_eq_true (List.eq_of_mem_replicate hc)

theorem dropWhile_of_head?_ne {l : List α} (h : l.head? ≠ some blank) :
    l.dropWhile (· = blank) = l := by
  cases l with
  | nil => rfl
  | cons c l =>
    have hc : c ≠ blank := fun hc => h (congrArg some hc)
    exact List.dropWhile_cons_of_neg (by simpa using hc)

theorem head?_dropWhile_ne (blank : α) (l : List α) :
    (l.dropWhile (· = blank)).head? ≠ some blank := by
  intro h
  have hnot := List.head?_dropWhile_not (· = blank) l
  rw [h] at hnot
  simp at hnot

theorem exists_eq_replicate_append_dropWhile (blank : α) (l : List α) :
    ∃ n, l = List.replicate n blank ++ l.dropWhile (· = blank) := by
  have hblanks : ∀ c ∈ l.takeWhile (· = blank), c = blank := by
    intro c hc
    have hdropped := List.mem_takeWhile_imp hc
    exact of_decide_eq_true hdropped
  refine ⟨(l.takeWhile (· = blank)).length, ?_⟩
  rw [← List.eq_replicate_of_mem hblanks, List.takeWhile_append_dropWhile]

/-- A list without the blanks at its two ends, computed. -/
def trim (blank : α) (l : List α) : List α :=
  (l.dropWhile (· = blank)).rdropWhile (· = blank)

theorem trimmed_trim (blank : α) (l : List α) : Trimmed blank l (trim blank l) := by
  obtain ⟨front, hfront⟩ := exists_eq_replicate_append_dropWhile blank l
  obtain ⟨back, hback⟩ :=
    exists_eq_replicate_append_dropWhile blank (l.dropWhile (· = blank)).reverse
  have hrest : l.dropWhile (· = blank) = trim blank l ++ List.replicate back blank := by
    have hreverse := congrArg List.reverse hback
    rwa [List.reverse_reverse, List.reverse_append, List.reverse_replicate] at hreverse
  refine ⟨⟨front, back, ?_⟩, ?_, ?_⟩
  · rw [List.append_assoc, ← hrest]
    exact hfront
  · intro hhead
    apply head?_dropWhile_ne blank l
    rw [hrest, List.head?_append, hhead]
    rfl
  · rw [trim, List.rdropWhile, List.getLast?_reverse]
    exact head?_dropWhile_ne blank _

theorem trimmed_iff {l core : List α} : Trimmed blank l core ↔ core = trim blank l := by
  constructor
  · rintro ⟨⟨front, back, rfl⟩, hhead, hlast⟩
    rw [trim, List.append_assoc, dropWhile_replicate_append]
    cases core with
    | nil =>
      have hnone := dropWhile_replicate_append blank back []
      rw [List.append_nil] at hnone
      rw [List.nil_append, hnone]
      rfl
    | cons c core =>
      have hfirst : (c :: core ++ List.replicate back blank).head? ≠ some blank := hhead
      rw [← List.head?_reverse] at hlast
      rw [dropWhile_of_head?_ne hfirst, List.rdropWhile, List.reverse_append,
        List.reverse_replicate, dropWhile_replicate_append, dropWhile_of_head?_ne hlast,
        List.reverse_reverse]
  · rintro rfl
    exact trimmed_trim blank l

theorem Trimmed.unique {l core core' : List α} (h : Trimmed blank l core)
    (h' : Trimmed blank l core') : core = core' :=
  (trimmed_iff.mp h).trans (trimmed_iff.mp h').symm

/-! ## Tapes and stacks that stand for the same without ends -/

theorem Tape.trimmed_of_unbounded_eq {t t' : Tape α}
    (h : t.unbounded blank = t'.unbounded blank) {core : List α} (ht : Trimmed blank t.cells core) :
    Trimmed blank t'.cells core := by
  obtain ⟨marks, before, current, after⟩ := t
  obtain ⟨marks', before', current', after'⟩ := t'
  have hahead : ∀ n, (current :: after).getD n blank = (current' :: after').getD n blank := by
    intro n
    have hn := congrFun h (Int.ofNat n)
    exact (unbounded_ofNat _ blank n).symm.trans (hn.trans (unbounded_ofNat _ blank n))
  have hcurrent : current = current' := hahead 0
  have hafter : ∀ n, after.getD n blank = after'.getD n blank := fun n => hahead (n + 1)
  have hbefore : ∀ n, before.getD n blank = before'.getD n blank := by
    intro n
    have hn := congrFun h (Int.negSucc n)
    rwa [unbounded_negSucc, unbounded_negSucc] at hn
  obtain ⟨before₀, i, i', rfl, rfl⟩ := exists_replicate_of_getD_eq hbefore
  obtain ⟨after₀, j, j', rfl, rfl⟩ := exists_replicate_of_getD_eq hafter
  -- the cells of both are those that they share with blanks around them
  have hcells : ∀ marks i j, (⟨marks, before₀ ++ List.replicate i blank, current,
      after₀ ++ List.replicate j blank⟩ : Tape α).cells =
        List.replicate i blank ++ (before₀.reverse ++ current :: after₀) ++
          List.replicate j blank := by
    intro marks i j
    simp [cells]
  have hshared := trimmed_trim blank (before₀.reverse ++ current :: after₀)
  rw [hcells marks i j] at ht
  rw [← hcurrent, hcells marks' i' j', ht.unique (hshared.pad i j)]
  exact hshared.pad i' j'

theorem Stack.items_of_unbounded_eq {s s' : Stack α}
    (h : s.unbounded blank = s'.unbounded blank) :
    s.items.dropWhile (· = blank) = s'.items.dropWhile (· = blank) := by
  have htopDown : ∀ n, s.items.reverse.getD n blank = s'.items.reverse.getD n blank := congrFun h
  obtain ⟨core, i, j, hs, hs'⟩ := exists_replicate_of_getD_eq htopDown
  rw [← List.reverse_reverse s.items, ← List.reverse_reverse s'.items, hs, hs']
  simp only [List.reverse_append, List.reverse_replicate, dropWhile_replicate_append]

end TapeMachine
