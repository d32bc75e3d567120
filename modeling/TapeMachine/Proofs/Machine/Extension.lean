import TapeMachine.Proofs.Machine.Limits
import TapeMachine.Proofs.Table.Latest

/-!
# Machines with other tables

A machine takes nothing from its table but the rule for its configuration, and that only while it is
live. So a machine with another table runs the same as long as both tables have the same rules where it
comes by (`runFor_withTable`): with a table that has more rules up to the first cycle that fails
(`runFor_withTable_of_extends`), and with one that has the same rules forever. Neither the order of the rules
nor their number is seen; their identifiers are, in the answers to the calls (`Progress.goesOn` leaves
them out).
-/

namespace TapeMachine

variable {σ α : Type}

/-- Tells whether the machine goes on, whatever action it has taken. -/
def Progress.goesOn : Progress → Bool
  | running _ => true
  | halted => false

namespace Table

variable [DecidableEq σ] [DecidableEq α]

/-- The rule for exactly this configuration. -/
def rule? (t : Table σ α) (key : Key σ α) : Option (Rule σ α) :=
  (t.lookup key).map Action.rule

/-- A table with all rules of another, and maybe more. -/
def Extends (t' t : Table σ α) : Prop :=
  ∀ key r, t.rule? key = some r → t'.rule? key = some r

end Table

namespace Machine

/-- The same machine with another table. -/
def withTable (m : Machine σ α) (table : Table σ α) : Machine σ α :=
  { m with table := table }

variable [DecidableEq σ] {m m' : Machine σ α} {table : Table σ α}

theorem live_withTable_iff : (m.withTable table).Live ↔ m.Live :=
  live_congr rfl Iff.rfl rfl

variable [DecidableEq α]

/-- The tables have the same rule for the configuration of a machine, if it is going to look for one. -/
def SameRule (m : Machine σ α) (table : Table σ α) : Prop :=
  m.Live → table.rule? m.key = m.table.rule? m.key

variable [Quoted σ] [Quoted α]

/-- A call that does not look for a rule does not see the table. -/
theorem step_withTable_of_not_live (h : ¬m.Live) (table : Table σ α) :
    (m.withTable table).step = (m.step.1.withTable table, m.step.2) := by
  have h' : ¬(m.withTable table).Live := fun hlive => h (live_withTable_iff.mp hlive)
  apply Prod.ext
  · rw [step_of_not_live h', step_of_not_live h]
  · exact answer_congr_of_not_live h h' rfl rfl

/-- A call depends on the table by the rule for the configuration only. -/
theorem step_withTable (h : m.SameRule table) :
    (m.withTable table).step.1 = m.step.1.withTable table ∧
      (m.withTable table).step.2.map Progress.goesOn = m.step.2.map Progress.goesOn := by
  by_cases hlive : m.Live
  · have hlive' : (m.withTable table).Live := live_withTable_iff.mpr hlive
    have hrule := h hlive
    unfold Table.rule? at hrule
    cases ha : m.table.lookup m.key with
    | none =>
      rw [ha, Option.map_none, Option.map_eq_none_iff] at hrule
      rw [step_of_lookup_none hlive' hrule, step_of_lookup_none hlive ha]
      exact ⟨rfl, rfl⟩
    | some a =>
      rw [ha, Option.map_some, Option.map_eq_some_iff] at hrule
      obtain ⟨a', ha', hrule⟩ := hrule
      rw [step_of_lookup_some hlive' ha', step_of_lookup_some hlive ha]
      constructor
      · simp only [apply, hrule]
        rfl
      · -- the two actions lead to the halt state or not alike
        rw [hrule]
        by_cases hnext : a.rule.next = m.config.halt
        · have hnext' : a.rule.next = (m.withTable table).config.halt := hnext
          rw [if_pos hnext, if_pos hnext']
        · have hnext' : ¬a.rule.next = (m.withTable table).config.halt := hnext
          rw [if_neg hnext, if_neg hnext']
          rfl
  · rw [step_withTable_of_not_live hlive]
    exact ⟨rfl, rfl⟩

theorem applies_withTable_iff (h : m.SameRule table) :
    (m.withTable table).Applies ↔ m.Applies := by
  have hfound (hlive : m.Live) : (∃ a, table.lookup m.key = some a) ↔
      ∃ a, m.table.lookup m.key = some a := by
    have hrule := congrArg Option.isSome (h hlive)
    simp only [Table.rule?, Option.isSome_map] at hrule
    rw [← Option.isSome_iff_exists, ← Option.isSome_iff_exists, hrule]
  rw [applies_iff, applies_iff, live_withTable_iff]
  exact and_congr_right hfound

theorem concluded_withTable (h : m.SameRule table) {β : Type} (answer : β) :
    (m.withTable table).concluded answer =
      ((m.concluded answer).1.withTable table, (m.concluded answer).2) := by
  obtain ⟨hmachine, hanswer⟩ := step_withTable h
  have hconst (result : Except Fault Progress) :
      result.map (fun _ => answer) = (result.map Progress.goesOn).map fun _ => answer := by
    cases result <;> rfl
  unfold concluded
  rw [hmachine, hconst, hanswer, ← hconst]

/-! ## Runs -/

/-- Several calls depend on the table by the rules for the configurations that they come by. -/
theorem stepped_withTable {n : Nat} (h : ∀ k < n, (m.stepped k).SameRule table) :
    (m.withTable table).stepped n = (m.stepped n).withTable table := by
  induction n with
  | zero => rfl
  | succ n ih =>
    rw [stepped_succ, ih fun k hk => h k (Nat.lt_succ_of_lt hk),
      (step_withTable (h n (Nat.lt_succ_self n))).1, stepped_succ]

theorem AppliesFor.withTable {n : Nat} (happlies : m.AppliesFor n)
    (h : ∀ k < n, (m.stepped k).SameRule table) : (m.withTable table).AppliesFor n := by
  intro k hk
  rw [stepped_withTable fun i hi => h i (Nat.lt_trans hi hk)]
  exact (applies_withTable_iff (h k hk)).mpr (happlies k hk)

/-- So does a run with a limit. -/
theorem runFor_withTable {limit : Nat} (h : ∀ k < limit, (m.stepped k).SameRule table) :
    (m.withTable table).runFor limit =
      ((m.runFor limit).1.withTable table, (m.runFor limit).2) := by
  rcases appliesFor_or_stops m limit with happlies | ⟨x, hx, hfirst, hstops⟩
  · rw [runFor_of_appliesFor (happlies.withTable h), runFor_of_appliesFor happlies,
      stepped_withTable h]
  · have hbefore : ∀ k < x, (m.stepped k).SameRule table := fun k hk => h k (Nat.lt_trans hk hx)
    have hstops' : ¬((m.withTable table).stepped x).Applies := by
      rw [stepped_withTable hbefore, applies_withTable_iff (h x hx)]
      exact hstops
    rw [runFor_of_stops (hfirst.withTable hbefore) hstops' hx, runFor_of_stops hfirst hstops hx,
      stepped_withTable hbefore, concluded_withTable (h x hx)]

/-- More rules do not change a run that does not fail: it finds all its rules among those that it has. -/
theorem runFor_withTable_of_extends (hextends : table.Extends m.table) {limit x : Nat}
    (hrun : m.runFor limit = (m', .ok x)) :
    (m.withTable table).runFor limit = (m'.withTable table, .ok x) := by
  obtain ⟨happlies, hm', hend⟩ := runFor_eq_ok hrun
  have hsame : ∀ k < limit, (m.stepped k).SameRule table := by
    intro k hk hlive
    have hkx : k < x := by
      rcases hend with rfl | ⟨hx, hrest⟩
      · exact hk
      · -- a machine at rest is not live
        by_contra hxk
        rw [hm'] at hrest
        rw [hrest.stepped_of_le (Nat.le_of_not_lt hxk)] at hlive
        cases hrest.halted.symm.trans hlive.unhalted
    obtain ⟨-, a, ha⟩ := applies_iff.mp (happlies k hkx)
    have hrule : (m.stepped k).table.rule? (m.stepped k).key = some a.rule := by
      rw [Table.rule?, ha]
      rfl
    rw [hrule]
    rw [table_stepped] at hrule
    exact hextends _ _ hrule
  rw [runFor_withTable hsame, hrun]

end Machine

end TapeMachine
