import TapeMachine.Proofs.Machine.Limits

/-!
# Failed cycles

A cycle of a machine without a fault fails if the table has no action for the machine's configuration,
and changes nothing but the fault and, in consuming mode, the stacks. The tops are gone by then, so that
the configuration may now be one with an action; but the fault comes first in every call that asks for a
cycle, and a call for anything else but a reset finds the machine initialized. So the machine stays as the
failure has left it (`after_of_fault`) and answers with the fault (`perform_of_fault`) until it is reset.
-/

namespace TapeMachine

/-- The calls that ask for a cycle; a run for nothing does not. -/
def Operation.AsksForCycle {σ α : Type} : Operation σ α → Prop
  | .step => True
  | .runFor limit => 0 < limit
  | .run fuel => 0 < fuel
  | _ => False

namespace Machine

variable {σ α : Type}

variable [DecidableEq σ] [DecidableEq α] [Quoted σ] [Quoted α] {m : Machine σ α} {f : Fault}

/-! ## The failure -/

/-- A cycle fails exactly if the machine has not halted and has no action. -/
theorem step_fails_iff (hi : m.isInitialized = true) (hf : m.fault = none) :
    (∃ f, m.step.2 = .error f) ↔ m.isHalted = false ∧ m.table.lookup m.key = none := by
  constructor
  · rintro ⟨f, hstep⟩
    have hfails : m.step = (m.step.1, .error f) := Prod.ext rfl hstep
    rcases atRest_or_unmatched hi hf (not_applies_of_error hfails) with hrest | ⟨hlive, ha⟩
    · rw [hrest.step_eq] at hstep
      cases hstep
    · exact ⟨hlive.unhalted, ha⟩
  · rintro ⟨hh, ha⟩
    exact ⟨_, by rw [step_of_lookup_none ⟨hi, hf, hh⟩ ha]⟩

theorem step_of_fails (hi : m.isInitialized = true) (hf : m.fault = none) {m' : Machine σ α}
    (h : m.step = (m', .error f)) : m' = m.fail ∧ f = undefinedTransition m.key := by
  have hfails : ∃ f, m.step.2 = .error f := ⟨f, by rw [h]⟩
  obtain ⟨hh, ha⟩ := (step_fails_iff hi hf).mp hfails
  cases (step_of_lookup_none ⟨hi, hf, hh⟩ ha).symm.trans h
  exact ⟨rfl, rfl⟩

omit [DecidableEq σ] [DecidableEq α] in
theorem fail_of_atomic (h : m.config.mode = .atomic) :
    m.fail = { m with fault := some (undefinedTransition m.key) } := by
  simp only [fail, spoiled, h]

omit [DecidableEq σ] [DecidableEq α] in
theorem fail_of_consume (h : m.config.mode = .consume) :
    m.fail = { m with
      contents.pushdowns := m.contents.pushdowns.map Stack.rest
      fault := some (undefinedTransition m.key) } := by
  simp only [fail, spoiled, h]
  rfl

/-! ## The faults that a machine keeps -/

/-- A fault that the machine keeps is that of a configuration without an action. -/
def OnlyUnmatched (m : Machine σ α) : Prop :=
  ∀ f, m.fault = some f → ∃ key : Key σ α, f = undefinedTransition key

theorem OnlyUnmatched.change {m m' : Machine σ α} (h : m.OnlyUnmatched) (hchange : Change m m') :
    m'.OnlyUnmatched := by
  cases hchange with
  | tape content hbuilding => exact h
  | stack content hbuilding => exact h
  | action hbuilding hbalanced => exact h
  | init hbuilding htapes hactions hfits => exact h
  | apply hlive ha => exact h
  | fail hlive ha =>
    rintro f ⟨⟩
    exact ⟨m.key, rfl⟩
  | reset hstored =>
    rintro f ⟨⟩

theorem OnlyUnmatched.step (h : m.OnlyUnmatched) : m.step.1.OnlyUnmatched :=
  changes_induction (fun _ _ => OnlyUnmatched.change) h (changes_step m)

/-- A cycle fails for want of a start or of an action. -/
theorem OnlyUnmatched.step_error (h : m.OnlyUnmatched) (hf : m.step.2 = .error f) :
    f = .notInitialized ∨ ∃ key : Key σ α, f = undefinedTransition key := by
  rw [step_eq] at hf
  split at hf
  · cases hf
    exact .inl rfl
  · split at hf
    · rename_i f' hfault
      cases hf
      exact .inr (h f hfault)
    · split at hf
      · cases hf
      · split at hf
        · cases hf
          exact .inr ⟨m.key, rfl⟩
        · cases hf

/-! ## After the failure -/

/-- A machine with a fault answers with it to every call for a cycle -/
theorem perform_of_fault (hi : m.isInitialized = true) (hf : m.fault = some f)
    (op : Operation σ α) (hop : op.AsksForCycle) : m.perform op = (m, .error f) := by
  have hstep := step_of_fault hi hf
  cases op with
  | step => simp [perform, hstep, Except.map]
  | runFor limit =>
    have hrun : m.runFor limit = (m, .error f) :=
      runFor_eq_error_iff.mpr ⟨0, hop, appliesFor_zero m, hstep⟩
    simp [perform, hrun, Except.map]
  | run fuel =>
    obtain ⟨fuel, rfl⟩ := Nat.exists_eq_succ_of_ne_zero (Nat.ne_of_gt hop)
    simp [perform, run, hstep, Except.map]
  | addTape content => exact hop.elim
  | addStack content => exact hop.elim
  | addAction rule => exact hop.elim
  | init => exact hop.elim
  | reset => exact hop.elim

/-- and is not changed by any call but a reset. -/
theorem perform_fst_of_fault (hi : m.isInitialized = true) (hf : m.fault = some f)
    {op : Operation σ α} (hop : op ≠ .reset) : (m.perform op).1 = m := by
  cases op with
  | addTape content => exact congrArg Prod.fst (addTape_of_initialized hi content)
  | addStack content => exact congrArg Prod.fst (addStack_of_initialized hi content)
  | addAction rule => exact congrArg Prod.fst (addAction_of_initialized hi rule)
  | init => exact congrArg Prod.fst (init_of_initialized hi)
  | step => rw [perform_of_fault hi hf .step trivial]
  | runFor limit =>
    cases limit with
    | zero => rfl
    | succ limit => rw [perform_of_fault hi hf (.runFor (limit + 1)) (Nat.succ_pos limit)]
  | run fuel =>
    cases fuel with
    | zero => rfl
    | succ fuel => rw [perform_of_fault hi hf (.run (fuel + 1)) (Nat.succ_pos fuel)]
  | reset => exact absurd rfl hop

theorem after_of_fault (hi : m.isInitialized = true) (hf : m.fault = some f)
    {ops : List (Operation σ α)} (hops : ∀ op ∈ ops, op ≠ .reset) : m.after ops = m := by
  induction ops with
  | nil => rfl
  | cons op ops ih =>
    obtain ⟨hop, hrest⟩ := List.forall_mem_cons.mp hops
    show (m.perform op).1.after ops = m
    rw [perform_fst_of_fault hi hf hop]
    exact ih hrest

omit [DecidableEq σ] [DecidableEq α] [Quoted σ] [Quoted α] in
/-- A reset is never refused once the machine is initialized, and clears the fault. -/
theorem exists_reset_eq_ok (hi : m.isInitialized = true) :
    ∃ m', m.reset = (m', .ok ()) ∧ m'.fault = none := by
  obtain ⟨c, hc⟩ := Option.isSome_iff_exists.mp hi
  exact ⟨_, reset_eq_ok_iff.mpr ⟨c, hc, rfl⟩, rfl⟩

/-- A cycle of an initialized machine without a fault fails exactly if there is no action for the state,
the symbols and the tops. The fault quotes these three, nothing else changes but the stacks of a
consuming machine, and up to a reset the machine stays like that and answers with the fault. -/
theorem failure_stays (hi : m.isInitialized = true) (hf : m.fault = none) :
    ((∃ f, m.step.2 = .error f) ↔
      m.isHalted = false ∧ m.table.lookup ⟨m.state, m.symbols, m.tops⟩ = none) ∧
    ∀ m' f, m.step = (m', .error f) →
      f = .undefinedTransition (quoted m.state) (quotedTuple m.symbols) (quotedTuple m.tops) ∧
      (m.config.mode = .atomic → m' = { m with fault := some f }) ∧
      (m.config.mode = .consume → m' = { m with
        contents.pushdowns := m.contents.pushdowns.map Stack.rest
        fault := some f }) ∧
      ∀ later : List (Operation σ α), (∀ op ∈ later, op ≠ .reset) →
        m'.after later = m' ∧
        (∀ op : Operation σ α, op.AsksForCycle → (m'.after later).perform op = (m', .error f)) ∧
        ∃ m'', (m'.after later).reset = (m'', .ok ()) ∧ m''.fault = none := by
  refine ⟨step_fails_iff hi hf, ?_⟩
  intro m' f hstep
  obtain ⟨rfl, rfl⟩ := step_of_fails hi hf hstep
  refine ⟨rfl, fail_of_atomic, fail_of_consume, ?_⟩
  intro later hlater
  have hi' : m.fail.isInitialized = true := hi
  have hf' : m.fail.fault = some (undefinedTransition m.key) := rfl
  rw [after_of_fault hi' hf' hlater]
  exact ⟨rfl, perform_of_fault hi' hf', exists_reset_eq_ok hi'⟩

/-- A consuming machine whose second look-up would find an action. -/
theorem failure_stays_matched :
    let rule : Rule Int Int := ⟨⟨0, [1], [3]⟩, [9], [9], [.stay], 1⟩
    let m := (new ⟨0, 1, ⟨0, 9⟩, .consume⟩).after
      [.addTape [1], .addStack [3, 4], .addAction rule, .init]
    m.isInitialized = true ∧ m.fault = none ∧ ∃ m' f, m.step = (m', .error f) ∧
      m'.table.lookup m'.key ≠ none ∧
      (m'.after [.step, .runFor 3, .addTape [], .init]).perform (.run 5) = (m', .error f) := by
  intro rule m
  have hi : m.isInitialized = true := by decide
  have hf : m.fault = none := by decide
  obtain ⟨hfails, hstays⟩ := failure_stays hi hf
  obtain ⟨f, hstep⟩ := hfails.mpr ⟨by decide, by decide⟩
  have hmatched : m.step.1.table.lookup m.step.1.key ≠ none := by decide
  obtain ⟨-, -, -, hlater⟩ := hstays m.step.1 f (Prod.ext rfl hstep)
  refine ⟨hi, hf, m.step.1, f, Prod.ext rfl hstep, hmatched, ?_⟩
  exact (hlater [.step, .runFor 3, .addTape [], .init] (by simp)).2.1 (.run 5) (Nat.succ_pos 4)

end Machine

end TapeMachine
