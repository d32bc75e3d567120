import TapeMachine.Proofs.Machine.Limits

/-!
# The two modes

Machines that differ in their modes only look up the same keys and apply the same actions to the same
contents, so they differ in nothing else up to the first cycle that fails (`stepped_withMode`). That
cycle fails on both with the same fault, and only now the modes show: the stacks of the consuming
machine have lost their tops (`fail_withMode`).
-/

namespace TapeMachine.Machine

variable {σ α : Type}

/-- The same machine in another mode. -/
def withMode (m : Machine σ α) (mode : Mode) : Machine σ α :=
  { m with config.mode := mode }

@[simp]
theorem withMode_withMode (m : Machine σ α) (mode mode' : Mode) :
    (m.withMode mode).withMode mode' = m.withMode mode' := rfl

theorem withMode_of_eq {m : Machine σ α} {mode : Mode} (h : m.config.mode = mode) :
    m.withMode mode = m := by
  rw [← h]
  rfl

variable [DecidableEq σ] {m : Machine σ α} {mode : Mode}

theorem live_withMode_iff : (m.withMode mode).Live ↔ m.Live :=
  live_congr rfl Iff.rfl rfl

theorem AtRest.withMode (h : m.AtRest) (mode : Mode) : (m.withMode mode).AtRest :=
  ⟨h.unfaulted, h.halted⟩

variable [DecidableEq α] [Quoted σ] [Quoted α]

/-- A cycle that applies an action goes the same way in both modes. -/
theorem step_withMode (h : m.Applies) (mode : Mode) :
    (m.withMode mode).step = (m.step.1.withMode mode, m.step.2) := by
  obtain ⟨hlive, a, ha⟩ := applies_iff.mp h
  have hlive' : (m.withMode mode).Live := live_withMode_iff.mpr hlive
  have ha' : (m.withMode mode).table.lookup (m.withMode mode).key = some a := ha
  rw [step_of_lookup_some hlive' ha', step_of_lookup_some hlive ha]
  rfl

theorem applies_withMode_iff : (m.withMode mode).Applies ↔ m.Applies := by
  rw [applies_iff, applies_iff, live_withMode_iff]
  rfl

/-- Up to the first cycle that applies no action the modes do not matter. -/
theorem stepped_withMode {n : Nat} (h : m.AppliesFor n) (mode : Mode) :
    (m.withMode mode).stepped n = (m.stepped n).withMode mode := by
  induction n with
  | zero => rfl
  | succ n ih =>
    obtain ⟨hfirst, hlast⟩ := appliesFor_succ.mp h
    rw [stepped_succ, ih hfirst, step_withMode hlast, stepped_succ]

theorem AppliesFor.withMode {n : Nat} (h : m.AppliesFor n) (mode : Mode) :
    (m.withMode mode).AppliesFor n := by
  intro k hk
  rw [stepped_withMode (h.of_le (Nat.le_of_lt hk))]
  exact applies_withMode_iff.mpr (h k hk)

omit [DecidableEq σ] [DecidableEq α] in
/-- A cycle that fails takes the tops from the stacks of a consuming machine only. -/
theorem fail_withMode (m : Machine σ α) :
    (m.withMode .consume).fail =
      { (m.withMode .atomic).fail.withMode .consume with
        contents.pushdowns := (m.withMode .atomic).fail.contents.pushdowns.map Stack.rest } :=
  rfl

/-- Two initialized machines without a fault that differ in their modes only come to the same in any
run with a limit: without a fault they still differ in their modes only, and with one also in that the stacks
of the consuming machine have lost their tops. -/
theorem runFor_consume_atomic {consuming atomic : Machine σ α}
    (hconsume : consuming.config.mode = .consume) (hatomic : atomic = consuming.withMode .atomic)
    (hi : consuming.isInitialized = true) (hf : consuming.fault = none) (limit : Nat) :
    (∃ m count, atomic.runFor limit = (m, .ok count) ∧
        consuming.runFor limit = (m.withMode .consume, .ok count)) ∨
      ∃ m f, atomic.runFor limit = (m, .error f) ∧
        consuming.runFor limit =
          ({ m.withMode .consume with
            contents.pushdowns := m.contents.pushdowns.map Stack.rest }, .error f) := by
  subst hatomic
  have hmode : ∀ n, (consuming.stepped n).withMode .consume = consuming.stepped n := by
    intro n
    apply withMode_of_eq
    rw [config_stepped, hconsume]
  rcases appliesFor_or_stops consuming limit with happlies | ⟨x, hx, hfirst, hstops⟩
  · have hatomic := runFor_of_appliesFor (happlies.withMode .atomic)
    rw [stepped_withMode happlies] at hatomic
    refine .inl ⟨_, limit, hatomic, ?_⟩
    rw [runFor_of_appliesFor happlies, withMode_withMode, hmode]
  · have hfirst' := hfirst.withMode .atomic
    have hstepped := stepped_withMode hfirst .atomic
    have hi' : (consuming.stepped x).isInitialized = true := by
      rw [isInitialized_stepped, hi]
    rcases atRest_or_unmatched hi' (hfirst.fault_eq_none hf) hstops with hrest | ⟨hlive, ha⟩
    · have hrest' := hrest.withMode .atomic
      rw [← hstepped] at hrest'
      have hatomic := runFor_of_stops hfirst' hrest'.not_applies hx
      rw [hrest'.concluded_eq, hstepped] at hatomic
      refine .inl ⟨_, x, hatomic, ?_⟩
      rw [runFor_of_stops hfirst hstops hx, hrest.concluded_eq, withMode_withMode, hmode]
    · -- both find no action for the same key
      have hfail := step_of_lookup_none hlive ha
      have hfail' : ((consuming.withMode .atomic).stepped x).step =
          (((consuming.stepped x).withMode .atomic).fail,
            .error (undefinedTransition (consuming.stepped x).key)) := by
        rw [hstepped]
        exact step_of_lookup_none (live_withMode_iff.mpr hlive) ha
      refine .inr ⟨_, _, runFor_eq_error_iff.mpr ⟨x, hx, hfirst', hfail'⟩, ?_⟩
      rw [← fail_withMode, hmode]
      exact runFor_eq_error_iff.mpr ⟨x, hx, hfirst, hfail⟩

/-- One cycle is applied; the next fails with one stack that has an item and one that is empty. -/
theorem runFor_consume_atomic_unmatched :
    let rule : Rule Int Int := ⟨⟨0, [0], [5, 0]⟩, [7], [9, 9], [.right], 2⟩
    let build (mode : Mode) : Machine Int Int := (new ⟨0, 1, ⟨0, 9⟩, mode⟩).after
      [.addTape [], .addStack [6, 5], .addStack [], .addAction rule, .init]
    (build .consume).config.mode = .consume ∧
      build .atomic = (build .consume).withMode .atomic ∧
      (build .consume).isInitialized = true ∧ (build .consume).fault = none ∧
      ∃ m f, (build .atomic).runFor 2 = (m, .error f) ∧
        m.contents.pushdowns.map Stack.items = [[6], []] ∧
        (build .consume).runFor 2 =
          ({ m.withMode .consume with
            contents.pushdowns := m.contents.pushdowns.map Stack.rest }, .error f) := by
  intro rule build
  have hsame : build .atomic = (build .consume).withMode .atomic := by decide
  have hi : (build .consume).isInitialized = true := by decide
  refine ⟨by decide, hsame, hi, by decide, ?_⟩
  rcases runFor_consume_atomic (by decide) hsame hi (by decide) 2 with
    ⟨m, count, hrun, -⟩ | ⟨m, f, hrun, hconsume⟩
  · have hfails : ((build .atomic).runFor 2).2.isOk = false := by decide
    rw [hrun] at hfails
    cases hfails
  · have hitems : ((build .atomic).runFor 2).1.contents.pushdowns.map Stack.items = [[6], []] := by
      decide
    rw [hrun] at hitems
    exact ⟨m, f, hrun, hitems, hconsume⟩

end TapeMachine.Machine
