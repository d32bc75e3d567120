import TapeMachine.Proofs.Machine.WellFormed

/-!
# Runs with and without a limit

A call for a cycle applies an action, leaves a machine at rest as it is, or fails. Both ways to run a
machine are calls that apply an action, one after the other, and one call more that does not apply any,
unless the limit comes first:

* `runFor_of_appliesFor` and `runFor_of_stops` say so of runs with a limit;
* `exists_run_eq_some_iff` says so of runs without one.

Hence a limit can be divided, what is counted is the calls that apply an action, and a run without a limit
comes to what runs with a large enough limit come to (`runs_agree_after_new`).
-/

namespace TapeMachine.Machine

variable {σ α : Type} [DecidableEq σ]

/-- A machine that has halted and not failed. -/
structure AtRest (m : Machine σ α) : Prop where
  unfaulted : m.fault = none
  halted : m.isHalted = true

variable [DecidableEq α] [Quoted σ] [Quoted α]

/-- A machine whose next cycle applies the action for its configuration. -/
def Applies (m : Machine σ α) : Prop :=
  ∃ a, m.table.lookup m.key = some a ∧ m.step.1 = m.apply a

/-- A machine whose next so many cycles all apply an action. -/
def AppliesFor (m : Machine σ α) (cycles : Nat) : Prop :=
  ∀ k < cycles, (m.stepped k).Applies

/-- The machine and the answer of a run that is over with the next call. -/
def concluded {β : Type} (m : Machine σ α) (answer : β) : Machine σ α × Except Fault β :=
  (m.step.1, m.step.2.map fun _ => answer)

variable {m m' : Machine σ α}

/-! ## One call -/

theorem applies_iff : m.Applies ↔ m.Live ∧ ∃ a, m.table.lookup m.key = some a := by
  constructor
  · rintro ⟨a, ha, hstep⟩
    by_cases hlive : m.Live
    · exact ⟨hlive, a, ha⟩
    · -- an action would have been counted
      rw [step_of_not_live hlive] at hstep
      have hcount : m.stepCount = m.stepCount + 1 := congrArg Machine.stepCount hstep
      omega
  · rintro ⟨hlive, a, ha⟩
    exact ⟨a, ha, by rw [step_of_lookup_some hlive ha]⟩

/-- The answer to a call that applies an action. -/
theorem Applies.step_eq (h : m.Applies) : ∃ a, m.Live ∧
    m.step = (m.apply a, .ok (if a.rule.next = m.config.halt then .halted else .running a.id)) := by
  obtain ⟨hlive, a, ha⟩ := applies_iff.mp h
  exact ⟨a, hlive, step_of_lookup_some hlive ha⟩

theorem AtRest.step_eq (h : m.AtRest) : m.step = (m, .ok .halted) :=
  step_of_halted h.unfaulted h.halted

theorem AtRest.not_applies (h : m.AtRest) : ¬m.Applies := by
  intro happlies
  have hunhalted := (applies_iff.mp happlies).1.unhalted
  rw [h.halted] at hunhalted
  cases hunhalted

/-- A call on a machine without a fault that does not apply an action finds the machine at rest or no
action for its configuration. -/
theorem atRest_or_unmatched (hi : m.isInitialized = true) (hf : m.fault = none) (h : ¬m.Applies) :
    m.AtRest ∨ (m.Live ∧ m.table.lookup m.key = none) := by
  cases hh : m.isHalted with
  | true => exact .inl ⟨hf, hh⟩
  | false =>
    have hlive : m.Live := ⟨hi, hf, hh⟩
    cases ha : m.table.lookup m.key with
    | some a => exact absurd (applies_iff.mpr ⟨hlive, a, ha⟩) h
    | none => exact .inr ⟨hlive, rfl⟩

/-- A call that does not apply an action finds the machine at rest or fails. -/
theorem atRest_or_fails (h : ¬m.Applies) : m.AtRest ∨ ∃ m' f, m.step = (m', .error f) := by
  cases hi : m.isInitialized with
  | false => exact .inr ⟨m, _, step_of_not_initialized hi⟩
  | true =>
    cases hf : m.fault with
    | some f => exact .inr ⟨m, f, step_of_fault hi hf⟩
    | none =>
      rcases atRest_or_unmatched hi hf h with hrest | ⟨hlive, ha⟩
      · exact .inl hrest
      · exact .inr ⟨_, _, step_of_lookup_none hlive ha⟩

theorem not_applies_of_error {f : Fault} (h : m.step = (m', .error f)) : ¬m.Applies := by
  intro happlies
  obtain ⟨a, -, hstep⟩ := happlies.step_eq
  rw [h] at hstep
  cases hstep

theorem applies_of_running {id : ActionId} (h : m.step.2 = .ok (.running id)) : m.Applies := by
  by_cases happlies : m.Applies
  · exact happlies
  · rcases atRest_or_fails happlies with hrest | ⟨m', f, hstep⟩
    · rw [hrest.step_eq] at h
      cases h
    · rw [hstep] at h
      cases h

theorem live_of_running {id : ActionId} (h : m.step.2 = .ok (.running id)) : m.Live :=
  (applies_iff.mp (applies_of_running h)).1

/-- Only a cycle that applies an action leaves the machine ready for another. -/
theorem applies_of_live_step (h : m.step.1.Live) : m.Applies := by
  by_cases hlive : m.Live
  · cases ha : m.table.lookup m.key with
    | some a => exact applies_iff.mpr ⟨hlive, a, ha⟩
    | none =>
      rw [step_of_lookup_none hlive ha] at h
      cases h.unfaulted
  · rw [step_of_not_live hlive] at h
    exact absurd h hlive

theorem AtRest.concluded_eq {β : Type} (h : m.AtRest) (answer : β) :
    m.concluded answer = (m, .ok answer) := by
  rw [concluded, h.step_eq]
  rfl

theorem concluded_eq_error_iff {β : Type} {answer : β} {f : Fault} :
    m.concluded answer = (m', .error f) ↔ m.step = (m', .error f) := by
  unfold concluded
  rcases m.step with ⟨m₁, f₁ | p⟩
  · simp [Except.map]
  · simp [Except.map]

/-- If the last call applies no action and does not fail, it finds the machine at rest. -/
theorem atRest_of_concluded {β : Type} {answer answer' : β} (h : ¬m.Applies)
    (hconcluded : m.concluded answer = (m', .ok answer')) :
    m.AtRest ∧ m' = m ∧ answer' = answer := by
  rcases atRest_or_fails h with hrest | ⟨m₁, f, hstep⟩
  · rw [hrest.concluded_eq] at hconcluded
    cases hconcluded
    exact ⟨hrest, rfl, rfl⟩
  · rw [concluded_eq_error_iff.mpr hstep] at hconcluded
    cases hconcluded

omit [Quoted σ] [Quoted α] in
/-- An action leads to rest exactly if its next state is the halt state. -/
theorem atRest_apply_iff (h : m.Live) {a : Action σ α} :
    (m.apply a).AtRest ↔ a.rule.next = m.config.halt := by
  have hi : (m.apply a).isInitialized = true := h.initialized
  have hstate : (m.apply a).state = a.rule.next := rfl
  have hconfig : (m.apply a).config = m.config := rfl
  constructor
  · intro hrest
    have hhalted := hrest.halted
    simpa [isHalted, hi, hstate, hconfig] using hhalted
  · intro hnext
    exact ⟨h.unfaulted, by simp [isHalted, hi, hstate, hconfig, hnext]⟩

/-! ## Several calls -/

theorem AtRest.stepped_eq (h : m.AtRest) (n : Nat) : m.stepped n = m := by
  induction n with
  | zero => rfl
  | succ n ih => rw [stepped_succ, ih, h.step_eq]

theorem stepped_add (m : Machine σ α) (n k : Nat) : m.stepped (n + k) = (m.stepped n).stepped k := by
  induction k with
  | zero => rfl
  | succ k ih => rw [← Nat.add_assoc, stepped_succ, ih, stepped_succ]

/-- A machine that has come to rest stays as it is. -/
theorem AtRest.stepped_of_le {x n : Nat} (h : (m.stepped x).AtRest) (hx : x ≤ n) :
    m.stepped n = m.stepped x := by
  obtain ⟨k, rfl⟩ := Nat.exists_eq_add_of_le hx
  rw [stepped_add, h.stepped_eq]

theorem appliesFor_zero (m : Machine σ α) : m.AppliesFor 0 := by
  intro k hk
  omega

theorem appliesFor_succ {n : Nat} :
    m.AppliesFor (n + 1) ↔ m.AppliesFor n ∧ (m.stepped n).Applies := by
  constructor
  · intro h
    exact ⟨fun k hk => h k (by omega), h n (by omega)⟩
  · rintro ⟨hfirst, hlast⟩ k hk
    by_cases hkn : k = n
    · rw [hkn]
      exact hlast
    · exact hfirst k (by omega)

theorem appliesFor_succ' {n : Nat} : m.AppliesFor (n + 1) ↔ m.Applies ∧ m.step.1.AppliesFor n := by
  constructor
  · intro h
    refine ⟨h 0 (by omega), ?_⟩
    intro k hk
    rw [← stepped_succ']
    exact h (k + 1) (by omega)
  · rintro ⟨hfirst, hrest⟩ k hk
    cases k with
    | zero => exact hfirst
    | succ k =>
      rw [stepped_succ']
      exact hrest k (by omega)

/-- Either all of the next calls apply an action or one of them is the first that does not. -/
theorem appliesFor_or_stops (m : Machine σ α) (limit : Nat) :
    m.AppliesFor limit ∨ ∃ x < limit, m.AppliesFor x ∧ ¬(m.stepped x).Applies := by
  induction limit with
  | zero => exact .inl (appliesFor_zero m)
  | succ limit ih =>
    rcases ih with happlies | ⟨x, hx, hfirst, hstops⟩
    · by_cases hlast : (m.stepped limit).Applies
      · exact .inl (appliesFor_succ.mpr ⟨happlies, hlast⟩)
      · exact .inr ⟨limit, by omega, happlies, hlast⟩
    · exact .inr ⟨x, by omega, hfirst, hstops⟩

theorem AppliesFor.of_le {n k : Nat} (h : m.AppliesFor n) (hk : k ≤ n) : m.AppliesFor k := by
  intro i hi
  exact h i (by omega)

theorem appliesFor_of_live {n : Nat} (h : (m.stepped n).Live) : m.AppliesFor n := by
  induction n with
  | zero => exact appliesFor_zero m
  | succ n ih =>
    have happlies : (m.stepped n).Applies := applies_of_live_step h
    exact appliesFor_succ.mpr ⟨ih (applies_iff.mp happlies).1, happlies⟩

/-- A cycle that applies an action leaves no fault. -/
theorem AppliesFor.fault_eq_none {n : Nat} (h : m.AppliesFor n) (hf : m.fault = none) :
    (m.stepped n).fault = none := by
  induction n with
  | zero => exact hf
  | succ n ih =>
    obtain ⟨hfirst, a, -, hstep⟩ := appliesFor_succ.mp h
    rw [stepped_succ, hstep]
    exact ih hfirst

/-- Each action applied is counted. -/
theorem AppliesFor.stepCount_eq {n : Nat} (h : m.AppliesFor n) :
    (m.stepped n).stepCount = m.stepCount + n := by
  induction n with
  | zero => rfl
  | succ n ih =>
    obtain ⟨hfirst, a, -, hstep⟩ := appliesFor_succ.mp h
    rw [stepped_succ, hstep]
    show (m.stepped n).stepCount + 1 = m.stepCount + (n + 1)
    rw [ih hfirst]
    omega

/-! ## Runs with a limit -/

/-- A run counts from where it is told to. -/
theorem runFrom_eq (applied limit : Nat) (m : Machine σ α) :
    m.runFrom applied limit = ((m.runFor limit).1, (m.runFor limit).2.map (applied + ·)) := by
  induction limit generalizing applied m with
  | zero => rfl
  | succ limit ih =>
    simp only [runFor, runFrom]
    split
    · rcases m.step with ⟨m', f | p⟩
      · rfl
      · simp only [ih (applied + 1) m', ih (0 + 1) m']
        cases (m'.runFor limit).2 with
        | error f => rfl
        | ok x =>
          show (_, Except.ok (applied + 1 + x)) = (_, Except.ok (applied + (0 + 1 + x)))
          rw [Nat.zero_add, Nat.add_assoc]
    · rfl

/-- A machine that is not at rest is asked for a cycle. -/
theorem runFor_succ_of_not_atRest (h : ¬m.AtRest) (limit : Nat) :
    m.runFor (limit + 1) =
      match m.step with
      | (m', .error f) => (m', .error f)
      | (m', .ok _) => m'.runFrom (0 + 1) limit := by
  have hgoes : (m.fault.isSome || !m.isHalted) = true := by
    cases hf : m.fault with
    | some f => rfl
    | none =>
      cases hh : m.isHalted with
      | true => exact absurd ⟨hf, hh⟩ h
      | false => rfl
  exact if_pos hgoes

theorem runFor_succ_of_applies (h : m.Applies) (limit : Nat) :
    m.runFor (limit + 1) =
      ((m.step.1.runFor limit).1, (m.step.1.runFor limit).2.map (1 + ·)) := by
  obtain ⟨a, -, hstep⟩ := h.step_eq
  have hrest : ¬m.AtRest := fun hrest => hrest.not_applies h
  rw [runFor_succ_of_not_atRest hrest, hstep]
  exact runFrom_eq (0 + 1) limit (m.apply a)

theorem runFor_succ_of_not_applies (h : ¬m.Applies) (limit : Nat) :
    m.runFor (limit + 1) = m.concluded 0 := by
  rcases atRest_or_fails h with hrest | ⟨m', f, hstep⟩
  · rw [hrest.concluded_eq]
    simp [runFor, runFrom, hrest.unfaulted, hrest.halted]
  · have hrest : ¬m.AtRest := by
      intro hrest
      rw [hrest.step_eq] at hstep
      cases hstep
    rw [concluded_eq_error_iff.mpr hstep, runFor_succ_of_not_atRest hrest, hstep]

/-- Actions that are applied can be taken off a run. -/
theorem runFor_add_of_appliesFor {x : Nat} (h : m.AppliesFor x) (limit : Nat) :
    m.runFor (x + limit) =
      (((m.stepped x).runFor limit).1, ((m.stepped x).runFor limit).2.map (x + ·)) := by
  induction x generalizing m with
  | zero =>
    rw [Nat.zero_add, stepped_zero]
    cases hrun : m.runFor limit with
    | mk m' r => cases r <;> simp [Except.map]
  | succ x ih =>
    obtain ⟨hfirst, hrest⟩ := appliesFor_succ'.mp h
    have hlimit : x + 1 + limit = x + limit + 1 := by omega
    rw [hlimit, runFor_succ_of_applies hfirst, ih hrest, stepped_succ']
    cases ((m.step.1.stepped x).runFor limit).2 with
    | error f => rfl
    | ok y =>
      show (_, Except.ok (1 + (x + y))) = (_, Except.ok (x + 1 + y))
      rw [← Nat.add_assoc, Nat.add_comm 1 x]

/-- A run applies actions up to its limit -/
theorem runFor_of_appliesFor {limit : Nat} (h : m.AppliesFor limit) :
    m.runFor limit = (m.stepped limit, .ok limit) :=
  runFor_add_of_appliesFor h 0

/-- or up to the first call that does not apply any. -/
theorem runFor_of_stops {x limit : Nat} (h : m.AppliesFor x) (hstops : ¬(m.stepped x).Applies)
    (hx : x < limit) : m.runFor limit = (m.stepped x).concluded x := by
  obtain ⟨k, rfl⟩ : ∃ k, limit = x + (k + 1) := ⟨limit - x - 1, by omega⟩
  rw [runFor_add_of_appliesFor h, runFor_succ_of_not_applies hstops]
  simp only [concluded]
  cases (m.stepped x).step.2 <;> rfl

/-- The two ways in which a run with a limit does not fail. -/
theorem runFor_eq_ok {limit x : Nat} (h : m.runFor limit = (m', .ok x)) :
    m.AppliesFor x ∧ m' = m.stepped x ∧ (x = limit ∨ x < limit ∧ m'.AtRest) := by
  rcases appliesFor_or_stops m limit with happlies | ⟨k, hk, hfirst, hstops⟩
  · cases (runFor_of_appliesFor happlies).symm.trans h
    exact ⟨happlies, rfl, .inl rfl⟩
  · rw [runFor_of_stops hfirst hstops hk] at h
    obtain ⟨hrest, rfl, rfl⟩ := atRest_of_concluded hstops h
    exact ⟨hfirst, rfl, .inr ⟨hk, hrest⟩⟩

/-- The one way in which it does. -/
theorem runFor_eq_error_iff {limit : Nat} {f : Fault} :
    m.runFor limit = (m', .error f) ↔
      ∃ x < limit, m.AppliesFor x ∧ (m.stepped x).step = (m', .error f) := by
  constructor
  · intro h
    rcases appliesFor_or_stops m limit with happlies | ⟨x, hx, hfirst, hstops⟩
    · cases (runFor_of_appliesFor happlies).symm.trans h
    · rw [runFor_of_stops hfirst hstops hx] at h
      exact ⟨x, hx, hfirst, concluded_eq_error_iff.mp h⟩
  · rintro ⟨x, hx, hfirst, hstep⟩
    rw [runFor_of_stops hfirst (not_applies_of_error hstep) hx]
    exact concluded_eq_error_iff.mpr hstep

/-- It fails exactly if it gets to a configuration without an action. -/
theorem runFor_fails_iff (hi : m.isInitialized = true) (hf : m.fault = none) {limit : Nat} :
    (∃ f, (m.runFor limit).2 = .error f) ↔
      ∃ x < limit, (m.stepped x).Live ∧ (m.stepped x).table.lookup (m.stepped x).key = none := by
  constructor
  · rintro ⟨f, hf'⟩
    have hrun : m.runFor limit = ((m.runFor limit).1, .error f) := Prod.ext rfl hf'
    obtain ⟨x, hx, happlies, hstep⟩ := runFor_eq_error_iff.mp hrun
    have hi' : (m.stepped x).isInitialized = true := by
      rw [isInitialized_stepped, hi]
    rcases atRest_or_unmatched hi' (happlies.fault_eq_none hf) (not_applies_of_error hstep) with
      hrest | hunmatched
    · cases (congrArg Prod.snd hrest.step_eq).symm.trans (congrArg Prod.snd hstep)
    · exact ⟨x, hx, hunmatched⟩
  · rintro ⟨x, hx, hlive, ha⟩
    have hrun := runFor_eq_error_iff.mpr
      ⟨x, hx, appliesFor_of_live hlive, step_of_lookup_none hlive ha⟩
    exact ⟨_, congrArg Prod.snd hrun⟩

/-- A limit can be divided where the first part does not fail -/
theorem runFor_add_of_ok {a x : Nat} (h : m.runFor a = (m', .ok x)) (b : Nat) :
    m.runFor (a + b) = ((m'.runFor b).1, (m'.runFor b).2.map (x + ·)) := by
  obtain ⟨happlies, rfl, rfl | ⟨hx, hrest⟩⟩ := runFor_eq_ok h
  · exact runFor_add_of_appliesFor happlies b
  · have hstill : (m.stepped x).runFor b = (m.stepped x, .ok 0) := by
      cases b with
      | zero => rfl
      | succ b => rw [runFor_succ_of_not_applies hrest.not_applies, hrest.concluded_eq]
    rw [hstill, runFor_of_stops happlies hrest.not_applies (by omega), hrest.concluded_eq]
    rfl

/-- and the second part is not reached where it does. -/
theorem runFor_add_of_error {a : Nat} {f : Fault} (h : m.runFor a = (m', .error f)) (b : Nat) :
    m.runFor (a + b) = (m', .error f) := by
  obtain ⟨x, hx, happlies, hstep⟩ := runFor_eq_error_iff.mp h
  exact runFor_eq_error_iff.mpr ⟨x, by omega, happlies, hstep⟩

/-! ## Runs without a limit -/

theorem run_succ_of_not_applies (h : ¬m.Applies) (fuel : Nat) :
    m.run (fuel + 1) = some (m.concluded ()) := by
  rcases atRest_or_fails h with hrest | ⟨m', f, hstep⟩
  · rw [hrest.concluded_eq, run, hrest.step_eq]
  · rw [concluded_eq_error_iff.mpr hstep, run, hstep]

/-- A run is over with the action that leads to rest -/
theorem run_succ_of_atRest (h : m.Applies) (hrest : m.step.1.AtRest) (fuel : Nat) :
    m.run (fuel + 1) = some (m.step.1.concluded ()) := by
  obtain ⟨a, hlive, hstep⟩ := h.step_eq
  rw [hrest.concluded_eq]
  rw [hstep] at hrest
  simp only [run, hstep, if_pos ((atRest_apply_iff hlive).mp hrest)]

/-- and goes on after any other. -/
theorem run_succ_of_not_atRest (h : m.Applies) (hrest : ¬m.step.1.AtRest) (fuel : Nat) :
    m.run (fuel + 1) = m.step.1.run fuel := by
  obtain ⟨a, hlive, hstep⟩ := h.step_eq
  rw [hstep] at hrest
  have hnext : ¬a.rule.next = m.config.halt := fun hnext => hrest ((atRest_apply_iff hlive).mpr hnext)
  simp only [run, hstep, if_neg hnext]

/-- A run applies actions up to the first call that does not apply any. -/
theorem exists_run_eq_some_iff {result : Machine σ α × Except Fault Unit} :
    (∃ fuel, m.run fuel = some result) ↔
      ∃ x, m.AppliesFor x ∧ ¬(m.stepped x).Applies ∧ result = (m.stepped x).concluded () := by
  constructor
  · rintro ⟨fuel, hrun⟩
    induction fuel generalizing m with
    | zero => cases hrun
    | succ fuel ih =>
      by_cases happlies : m.Applies
      · have hfirst : m.AppliesFor 1 := appliesFor_succ.mpr ⟨appliesFor_zero m, happlies⟩
        by_cases hrest : m.step.1.AtRest
        · -- the call that would find the machine at rest is not made
          rw [run_succ_of_atRest happlies hrest] at hrun
          exact ⟨1, hfirst, hrest.not_applies, (Option.some.inj hrun).symm⟩
        · rw [run_succ_of_not_atRest happlies hrest] at hrun
          obtain ⟨x, hx, hstops, hresult⟩ := ih hrun
          rw [← stepped_succ'] at hstops hresult
          exact ⟨x + 1, appliesFor_succ'.mpr ⟨happlies, hx⟩, hstops, hresult⟩
      · rw [run_succ_of_not_applies happlies] at hrun
        exact ⟨0, appliesFor_zero m, happlies, (Option.some.inj hrun).symm⟩
  · rintro ⟨x, hx, hstops, rfl⟩
    induction x generalizing m with
    | zero => exact ⟨1, run_succ_of_not_applies hstops 0⟩
    | succ x ih =>
      obtain ⟨happlies, hx⟩ := appliesFor_succ'.mp hx
      rw [stepped_succ'] at hstops ⊢
      by_cases hrest : m.step.1.AtRest
      · rw [hrest.stepped_eq]
        exact ⟨1, run_succ_of_atRest happlies hrest 0⟩
      · obtain ⟨fuel, hrun⟩ := ih hx hstops
        exact ⟨fuel + 1, (run_succ_of_not_atRest happlies hrest fuel).trans hrun⟩

/-- A run ends without a fault where a run with some limit does, at rest -/
theorem exists_run_eq_ok_iff :
    (∃ fuel, m.run fuel = some (m', .ok ())) ↔
      ∃ limit x, m.runFor limit = (m', .ok x) ∧ m'.AtRest := by
  rw [exists_run_eq_some_iff]
  constructor
  · rintro ⟨x, hx, hstops, hresult⟩
    obtain ⟨hrest, rfl, -⟩ := atRest_of_concluded hstops hresult.symm
    exact ⟨x, x, runFor_of_appliesFor hx, hrest⟩
  · rintro ⟨limit, x, hrun, hrest⟩
    obtain ⟨hx, rfl, -⟩ := runFor_eq_ok hrun
    exact ⟨x, hx, hrest.not_applies, (hrest.concluded_eq ()).symm⟩

/-- and with a fault where a run with some limit does. -/
theorem exists_run_eq_error_iff {f : Fault} :
    (∃ fuel, m.run fuel = some (m', .error f)) ↔ ∃ limit, m.runFor limit = (m', .error f) := by
  rw [exists_run_eq_some_iff]
  constructor
  · rintro ⟨x, hx, hstops, hresult⟩
    have hstep := concluded_eq_error_iff.mp hresult.symm
    exact ⟨x + 1, runFor_eq_error_iff.mpr ⟨x, by omega, hx, hstep⟩⟩
  · rintro ⟨limit, hrun⟩
    obtain ⟨x, -, hx, hstep⟩ := runFor_eq_error_iff.mp hrun
    exact ⟨x, hx, not_applies_of_error hstep, (concluded_eq_error_iff.mpr hstep).symm⟩

/-! ## All runs of a machine -/

/-- After every history of a machine, a limit can be divided, a run that does not fail comes to as many
calls for a cycle as its limit and counts those that apply an action, and a run without a limit comes to
what runs with a limit come to. -/
theorem runs_agree_after_new (config : Config σ α) (ops : List (Operation σ α)) :
    let m := (new config).after ops
    (∀ a b m',
      (∀ x, m.runFor a = (m', .ok x) →
        m.runFor (a + b) = ((m'.runFor b).1, (m'.runFor b).2.map (x + ·))) ∧
      (∀ f, m.runFor a = (m', .error f) → m.runFor (a + b) = (m', .error f))) ∧
    (∀ limit m' x, m.runFor limit = (m', .ok x) →
      m' = m.stepped limit ∧ m'.stepCount = m.stepCount + x ∧ x ≤ limit ∧
        (x < limit → m'.isHalted = true) ∧ ∀ k < limit, (m.stepped k).Applies ↔ k < x) ∧
    (∀ limit m' f, m.runFor limit = (m', .error f) ↔
      ∃ k < limit, m.AppliesFor k ∧ (m.stepped k).step = (m', .error f)) ∧
    (∀ m', (∃ fuel, m.run fuel = some (m', .ok ())) ↔
      ∃ limit x, m.runFor limit = (m', .ok x) ∧ m'.isHalted = true) ∧
    ∀ m' f, (∃ fuel, m.run fuel = some (m', .error f)) ↔
      ∃ limit, m.runFor limit = (m', .error f) := by
  intro m
  have hm : m.WellFormed := (wellFormed_new config).after ops
  refine ⟨?_, ?_, ?_, ?_, ?_⟩
  · intro a b m'
    exact ⟨fun x hrun => runFor_add_of_ok hrun b, fun f hrun => runFor_add_of_error hrun b⟩
  · intro limit m' x hrun
    obtain ⟨hx, rfl, hend⟩ := runFor_eq_ok hrun
    refine ⟨?_, hx.stepCount_eq, by omega, ?_, ?_⟩
    · rcases hend with rfl | ⟨hlt, hrest⟩
      · rfl
      · exact (hrest.stepped_of_le (Nat.le_of_lt hlt)).symm
    · intro hlt
      rcases hend with rfl | ⟨-, hrest⟩
      · omega
      · exact hrest.halted
    · intro k hk
      constructor
      · intro happlies
        rcases hend with rfl | ⟨-, hrest⟩
        · exact hk
        · apply Nat.lt_of_not_le
          intro hxk
          rw [hrest.stepped_of_le hxk] at happlies
          exact hrest.not_applies happlies
      · exact hx k
  · intro limit m' f
    exact runFor_eq_error_iff
  · intro m'
    rw [exists_run_eq_ok_iff]
    constructor
    · rintro ⟨limit, x, hrun, hrest⟩
      exact ⟨limit, x, hrun, hrest.halted⟩
    · rintro ⟨limit, x, hrun, hhalted⟩
      obtain ⟨-, rfl, -⟩ := runFor_eq_ok hrun
      have hunfaulted : (m.stepped x).fault = none := by
        cases hfault : (m.stepped x).fault with
        | none => rfl
        | some f =>
          -- a machine with a fault is not halted
          have hunhalted := (hm.stepped x).faulted (by simp [hfault])
          rw [hhalted] at hunhalted
          cases hunhalted
      exact ⟨limit, x, hrun, hunfaulted, hhalted⟩
  · intro m' f
    exact exists_run_eq_error_iff

end TapeMachine.Machine
