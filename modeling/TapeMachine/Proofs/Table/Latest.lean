import Mathlib.Data.List.Induction
import TapeMachine.Table

/-!
# Tables as lists of registrations

A list of rules in the order of their registration determines an action for every configuration:
that of the last rule for it, with the rule's place in the list as its identifier (`latest?`). The
table that the rules were registered in answers the same to every look-up (`Table.Records`).
-/

namespace TapeMachine

variable {σ α : Type} [DecidableEq σ] [DecidableEq α]

/-- The action of the last rule for a configuration. -/
def latest? (rules : List (Rule σ α)) (key : Key σ α) : Option (Action σ α) :=
  (rules.zipIdx.reverse.find? fun entry => entry.1.key = key).map fun entry =>
    ⟨⟨entry.2⟩, entry.1⟩

@[simp]
theorem latest?_nil (key : Key σ α) : latest? [] key = none := rfl

theorem latest?_concat (rules : List (Rule σ α)) (rule : Rule σ α) (key : Key σ α) :
    latest? (rules ++ [rule]) key =
      if rule.key = key then some ⟨⟨rules.length⟩, rule⟩ else latest? rules key := by
  by_cases h : rule.key = key
  · simp [latest?, List.zipIdx_append, h]
  · simp [latest?, List.zipIdx_append, h]

omit [DecidableEq σ] [DecidableEq α] in
private theorem getElem?_concat_eq_some_iff {rules : List (Rule σ α)} {rule r : Rule σ α}
    {i : Nat} : (rules ++ [rule])[i]? = some r ↔
      rules[i]? = some r ∨ (i = rules.length ∧ rule = r) := by
  rcases Nat.lt_trichotomy i rules.length with h | h | h
  · simp [List.getElem?_append_left h, Nat.ne_of_lt h]
  · simp [h]
  · have hend : (rules ++ [rule]).length ≤ i := by
      rw [List.length_append, List.length_singleton]
      exact h
    simp [List.getElem?_eq_none hend, List.getElem?_eq_none (Nat.le_of_lt h), Nat.ne_of_gt h]

/-- No later rule is for the same configuration. -/
theorem latest?_eq_some_iff {rules : List (Rule σ α)} {key : Key σ α} {a : Action σ α} :
    latest? rules key = some a ↔
      rules[a.id.index]? = some a.rule ∧ a.rule.key = key ∧
        ∀ i r, a.id.index < i → rules[i]? = some r → r.key ≠ key := by
  -- from the end of the list, since the last rule counts
  induction rules using List.reverseRecOn with
  | nil => simp
  | append_singleton rules rule ih =>
    rw [latest?_concat]
    by_cases h : rule.key = key
    · rw [if_pos h]
      constructor
      · rintro ⟨⟩
        refine ⟨getElem?_concat_eq_some_iff.mpr (.inr ⟨rfl, rfl⟩), h, ?_⟩
        intro i r hi hr
        rcases getElem?_concat_eq_some_iff.mp hr with hr | ⟨hlength, _⟩
        · exact absurd (List.getElem?_eq_some_iff.mp hr).1 (Nat.lt_asymm hi)
        · exact absurd hlength (Nat.ne_of_gt hi)
      · rintro ⟨ha, _, hlater⟩
        rcases getElem?_concat_eq_some_iff.mp ha with hearlier | ⟨hlength, hrule⟩
        · -- an earlier rule is not the last one for the key
          have hlt : a.id.index < rules.length := (List.getElem?_eq_some_iff.mp hearlier).1
          exact absurd h
            (hlater _ rule hlt (getElem?_concat_eq_some_iff.mpr (.inr ⟨rfl, rfl⟩)))
        · rw [← hlength, hrule]
    · rw [if_neg h, ih]
      constructor
      · rintro ⟨ha, hkey, hlater⟩
        refine ⟨getElem?_concat_eq_some_iff.mpr (.inl ha), hkey, ?_⟩
        intro i r hi hr
        rcases getElem?_concat_eq_some_iff.mp hr with hr | ⟨_, rfl⟩
        · exact hlater i r hi hr
        · exact h
      · rintro ⟨ha, hkey, hlater⟩
        rcases getElem?_concat_eq_some_iff.mp ha with ha | ⟨_, hrule⟩
        · exact ⟨ha, hkey, fun i r hi hr =>
            hlater i r hi (getElem?_concat_eq_some_iff.mpr (.inl hr))⟩
        · rw [← hrule] at hkey
          exact absurd hkey h

theorem latest?_eq_none_iff {rules : List (Rule σ α)} {key : Key σ α} :
    latest? rules key = none ↔ ∀ r ∈ rules, r.key ≠ key := by
  induction rules using List.reverseRecOn with
  | nil => simp
  | append_singleton rules rule ih =>
    rw [latest?_concat]
    by_cases h : rule.key = key
    · simp [h]
    · simp [h, ih, or_imp, forall_and]

namespace Table

/-- A table that answers as the list of the rules registered in it. -/
structure Records (t : Table σ α) (rules : List (Rule σ α)) : Prop where
  registered : t.registered = rules.length
  lookup : ∀ key, t.lookup key = latest? rules key

theorem records_empty : (empty : Table σ α).Records [] :=
  ⟨rfl, fun _ => rfl⟩

theorem Records.insert {t : Table σ α} {rules : List (Rule σ α)} (h : t.Records rules)
    (rule : Rule σ α) : (t.insert rule).Records (rules ++ [rule]) where
  registered := by
    rw [registered_insert, h.registered, List.length_append, List.length_singleton]
  lookup key := by
    rw [lookup_insert, latest?_concat, h.lookup, h.registered]

end Table

end TapeMachine
