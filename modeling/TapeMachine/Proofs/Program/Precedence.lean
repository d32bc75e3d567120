import TapeMachine.Proofs.Machine.Extension
import TapeMachine.Proofs.Program.Cycles

/-!
# The actions that count

Of the actions of a program that are for the same configuration the last one counts, with its directions
as they are read (`Program.rule?`). Two programs with the same marks, states, mode and contents have machines that
differ in their tables only, so nothing but these rules decides between them: the program with more of them runs
as the other does where that does not fail, and with the same ones both run alike
(`runs_follow_rules`). Where the actions stand, which ones are replaced by later ones and how their directions
are spelled is not seen.
-/

namespace TapeMachine

/-- The rule of the last rule for a configuration, whatever its place. -/
theorem map_rule_latest? {σ α : Type} [DecidableEq σ] [DecidableEq α] (rules : List (Rule σ α))
    (key : Key σ α) :
    (latest? rules key).map Action.rule = rules.reverse.find? fun r => r.key = key := by
  induction rules using List.reverseRecOn with
  | nil => rfl
  | append_singleton rules rule ih =>
    rw [latest?_concat, List.reverse_append, List.reverse_singleton, List.singleton_append,
      List.find?_cons]
    by_cases h : rule.key = key
    · simp [h]
    · simp [h, ih]

namespace Program

/-- What the last action for a configuration makes of it. -/
def rule? (p : Program) (key : Key String Char) : Option (Rule String Char) :=
  (p.actions.reverse.find? fun a => a.key = key).bind fun a => (p.rule a).toOption

variable {p q : Program}

theorem rule_of_legible {a : ActionText} (h : p.Legible a) : p.rule a = .ok (p.ruleOf a) := by
  have hspelled : (a.tokens.filter fun c => c ∉ p.spellings).map Fault.invalidDirection = [] := by
    simpa using h.spelled
  rw [rule_eq, hspelled, checked_nil]

/-- The table of a program has the rule of the last action. -/
theorem rule?_table (h : p.WellFormed) (key : Key String Char) :
    p.table.rule? key = p.rule? key := by
  have hlast : p.table.rule? key = (p.actions.reverse.find? fun a => a.key = key).map p.ruleOf := by
    rw [Table.rule?, (records_table p).lookup, map_rule_latest?, ← List.map_reverse,
      List.find?_map]
    rfl
  rw [hlast, rule?]
  cases ha : p.actions.reverse.find? fun a => a.key = key with
  | none => rfl
  | some a =>
    have hmem : a ∈ p.actions := List.mem_reverse.mp (List.mem_of_find?_eq_some ha)
    rw [Option.map_some, Option.bind_some, rule_of_legible (h.legible a hmem)]
    rfl

/-- Programs that agree in all but their actions have machines that agree in all but their tables. -/
theorem machine_withTable (hconfig : q.config = p.config) (htapes : q.tapes = p.tapes)
    (hpushdowns : q.pushdowns = p.pushdowns) : q.machine = p.machine.withTable q.table := by
  have hinitial : q.initial = p.initial := congrArg Config.initial hconfig
  simp only [machine, Machine.withTable, contents, hconfig, htapes, hpushdowns, hinitial]

/-- Of two programs with the same configuration and contents, one that has all rules of the other runs as
it does where it does not fail, and one that has the same rules runs as it does in any case: call for call the
machines differ in their tables and the answers in the identifiers at most. -/
theorem runs_follow_rules {m n : Machine String Char} (hm : p.build = .ok m) (hn : q.build = .ok n)
    (hconfig : q.config = p.config) (htapes : q.tapes = p.tapes)
    (hpushdowns : q.pushdowns = p.pushdowns) :
    ((∀ key r, p.rule? key = some r → q.rule? key = some r) →
      ∀ limit m' x, m.runFor limit = (m', .ok x) →
        n.runFor limit = (m'.withTable n.table, .ok x)) ∧
    ((∀ key, q.rule? key = p.rule? key) →
      (∀ limit, n.runFor limit = ((m.runFor limit).1.withTable n.table, (m.runFor limit).2)) ∧
      ∀ k, n.stepped k = (m.stepped k).withTable n.table ∧
        (n.stepped k).step.2.map Progress.goesOn = (m.stepped k).step.2.map Progress.goesOn) := by
  obtain ⟨hp, rfl⟩ := build_eq_ok_iff.mp hm
  obtain ⟨hq, rfl⟩ := build_eq_ok_iff.mp hn
  have htable : q.machine.table = q.table := rfl
  rw [htable, machine_withTable hconfig htapes hpushdowns]
  refine ⟨fun hrules limit m' x hrun => ?_, fun hrules => ?_⟩
  · have hextends : q.table.Extends p.machine.table := by
      intro key r hr
      rw [rule?_table hq]
      exact hrules key r ((rule?_table hp key).symm.trans hr)
    exact Machine.runFor_withTable_of_extends hextends hrun
  · have hsame (k : Nat) : (p.machine.stepped k).SameRule q.table := by
      intro _
      rw [Machine.table_stepped, rule?_table hq, hrules]
      exact (rule?_table hp _).symm
    refine ⟨fun limit => Machine.runFor_withTable fun k _ => hsame k, fun k => ?_⟩
    have hstepped := Machine.stepped_withTable (n := k) fun i _ => hsame i
    refine ⟨hstepped, ?_⟩
    rw [hstepped]
    exact (Machine.step_withTable (hsame k)).2

/-- The second program has the actions that count in another order and with tokens of its own, the third
has one action more. The first run with two cycles goes on in the third program, the third cycle fails in
the second as in the first. -/
theorem runs_follow_rules_respelled :
    let p : Program := {
      initial := "a", tapes := ["x"]
      actions := [⟨"a", "x", "", "z", "", "R", "halt"⟩, ⟨"b", "_", "", "*", "", "S", "a"⟩,
        ⟨"a", "x", "", "y", "", "L", "b"⟩] }
    let q : Program := { p with
      directionTokens := some ⟨'p', 'q', 'r'⟩
      actions := [⟨"a", "x", "", "y", "", "p", "b"⟩, ⟨"b", "_", "", "*", "", " r", "a"⟩] }
    let more : Program := { p with actions := p.actions ++ [⟨"a", "_", "", "*", "", "S", "halt"⟩] }
    ∃ m n n' m', p.build = .ok m ∧ q.build = .ok n ∧ more.build = .ok n' ∧
      m.runFor 2 = (m', .ok 2) ∧ n'.runFor 2 = (m'.withTable n'.table, .ok 2) ∧
      (m.runFor 3).2.isOk = false ∧
      n.runFor 3 = ((m.runFor 3).1.withTable n.table, (m.runFor 3).2) := by
  intro p q more
  have hm : p.build = .ok p.machine := rfl
  have hn : q.build = .ok q.machine := rfl
  have hn' : more.build = .ok more.machine := rfl
  have hrun : p.machine.runFor 2 = (p.machine.stepped 2, .ok 2) := by decide
  have hsame : ∀ key, q.rule? key = p.rule? key := by
    intro key
    by_cases ha : (⟨"a", ['x'], []⟩ : Key String Char) = key
    · subst ha
      rfl
    · by_cases hb : (⟨"b", ['_'], []⟩ : Key String Char) = key
      · subst hb
        rfl
      · simp [rule?, p, q, ActionText.key, ha, hb]
  have hmore : ∀ key r, p.rule? key = some r → more.rule? key = some r := by
    intro key r hr
    by_cases hc : (⟨"a", ['_'], []⟩ : Key String Char) = key
    · subst hc
      cases hr
    · have hother : more.rule? key = p.rule? key := by
        simp only [rule?, more, List.reverse_append, List.reverse_singleton]
        rw [List.singleton_append, List.find?_cons_of_neg (by simpa [ActionText.key] using hc)]
        rfl
      rw [hother, hr]
  obtain ⟨hextended, -⟩ := runs_follow_rules hm hn' rfl rfl rfl
  obtain ⟨-, hequal⟩ := runs_follow_rules hm hn rfl rfl rfl
  exact ⟨_, _, _, _, hm, hn, hn', hrun, hextended hmore 2 _ 2 hrun, by decide, (hequal hsame).1 3⟩

end Program

end TapeMachine
