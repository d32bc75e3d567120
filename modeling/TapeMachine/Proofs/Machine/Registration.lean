import TapeMachine.Proofs.Machine.Operation
import TapeMachine.Proofs.Table.Latest

/-!
# The table of a history

The table of a machine records the rules that its history registered, in their order
(`records_after_new`); no other call touches it.
-/

namespace TapeMachine.Machine

variable {σ α : Type} [DecidableEq σ] [DecidableEq α] [Quoted σ] [Quoted α]

/-- A call adds the rule that it registers, if it does. -/
theorem records_perform {m : Machine σ α} {rules : List (Rule σ α)} (h : m.table.Records rules)
    (op : Operation σ α) : (m.perform op).1.table.Records (rules ++ (m.accepted? op).toList) := by
  -- all calls but a registration leave the table as it is
  have hkept (htable : (m.perform op).1.table = m.table) (hnone : m.accepted? op = none) :
      (m.perform op).1.table.Records (rules ++ (m.accepted? op).toList) := by
    rw [htable, hnone, Option.toList_none, List.append_nil]
    exact h
  cases op with
  | addAction rule =>
    simp only [accepted?, perform]
    rcases hadd : m.addAction rule with ⟨m', result⟩
    cases result with
    | ok id =>
      obtain ⟨-, -, -, rfl⟩ := addAction_eq_ok_iff.mp hadd
      exact h.insert rule
    | error f =>
      obtain rfl := eq_of_addAction_eq_error hadd
      rw [Option.toList_none, List.append_nil]
      exact h
  | addTape content => exact hkept (m.table_addTape content) rfl
  | addStack content => exact hkept (m.table_addStack content) rfl
  | init => exact hkept m.table_init rfl
  | step => exact hkept (table_step m) rfl
  | runFor limit =>
    obtain ⟨n, hn⟩ := m.runFrom_eq_stepped 0 limit
    refine hkept ?_ rfl
    simp only [perform, runFor, hn, table_stepped]
  | run fuel =>
    refine hkept ?_ rfl
    simp only [perform]
    split
    · rename_i m' result hrun
      obtain ⟨n, rfl⟩ := run_eq_stepped hrun
      exact table_stepped m n
    · rfl
  | reset => exact hkept m.table_reset rfl

theorem records_after {m : Machine σ α} {rules : List (Rule σ α)} (h : m.table.Records rules)
    (ops : List (Operation σ α)) : (m.after ops).table.Records (rules ++ m.accepted ops) := by
  induction ops generalizing m rules with
  | nil => simpa [accepted, after] using h
  | cons op ops ih =>
    have hrest := ih (records_perform h op)
    rwa [List.append_assoc] at hrest

/-- The table of a machine records what was registered since it was new. -/
theorem records_after_new (config : Config σ α) (ops : List (Operation σ α)) :
    ((new config).after ops).table.Records ((new config).accepted ops) := by
  have hnew : (new config).table.Records [] := Table.records_empty
  simpa using records_after hnew ops

end TapeMachine.Machine
