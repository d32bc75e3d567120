import TapeMachine.Machine.Cycle

/-!
# Runs

A machine runs cycle by cycle until it halts or fails, or until a limit is reached. A reset takes it
back to where initialization left it.
-/

namespace TapeMachine.Machine

variable {σ α : Type}

/-- Goes back to the contents at initialization, whatever has happened since. -/
def reset (m : Machine σ α) : Machine σ α × Except Fault Unit :=
  match m.stored with
  | none => (m, .error .notInitialized)
  | some contents =>
    ({ m with contents := contents, state := m.config.initial, stepCount := 0, fault := none },
      .ok ())

theorem reset_eq_ok_iff {m m' : Machine σ α} :
    m.reset = (m', .ok ()) ↔
      ∃ c, m.stored = some c ∧
        m' = { m with contents := c, state := m.config.initial, stepCount := 0, fault := none } := by
  unfold reset
  cases m.stored <;> simp [@eq_comm _ m']

theorem eq_of_reset_eq_error {m m' : Machine σ α} {f : Fault} (h : m.reset = (m', .error f)) :
    m' = m := by
  unfold reset at h
  split at h
  · cases h
    rfl
  · cases h

@[simp]
theorem table_reset (m : Machine σ α) : m.reset.1.table = m.table := by
  unfold reset
  split <;> rfl

variable [DecidableEq σ] [DecidableEq α] [Quoted σ] [Quoted α]

/-- The machine after so many calls for a cycle, whatever they come to. -/
def stepped (m : Machine σ α) : (calls : Nat) → Machine σ α
  | 0 => m
  | calls + 1 => (m.stepped calls).step.1

/-- Up to `limit` further cycles, counted from `applied`. -/
def runFrom (applied : Nat) : (limit : Nat) → Machine σ α → Machine σ α × Except Fault Nat
  | 0, m => (m, .ok applied)
  | limit + 1, m =>
    if m.fault.isSome || !m.isHalted then
      match m.step with
      | (m', .error f) => (m', .error f)
      | (m', .ok _) => runFrom (applied + 1) limit m'
    else (m, .ok applied)

/-- Runs at most `limit` cycles, and fewer only if the machine halts; counts those applied. -/
def runFor (limit : Nat) (m : Machine σ α) : Machine σ α × Except Fault Nat :=
  runFrom 0 limit m

/-- Runs until the machine halts or fails; nothing if that takes more than `fuel` cycles. -/
def run : (fuel : Nat) → Machine σ α → Option (Machine σ α × Except Fault Unit)
  | 0, _ => none
  | fuel + 1, m =>
    match m.step with
    | (m', .error f) => some (m', .error f)
    | (m', .ok .halted) => some (m', .ok ())
    | (m', .ok (.running _)) => run fuel m'

/-! ## Runs as repeated cycles -/

@[simp]
theorem stepped_zero (m : Machine σ α) : m.stepped 0 = m := rfl

theorem stepped_succ (m : Machine σ α) (n : Nat) : m.stepped (n + 1) = (m.stepped n).step.1 := rfl

theorem stepped_succ' (m : Machine σ α) (n : Nat) : m.stepped (n + 1) = m.step.1.stepped n := by
  induction n with
  | zero => rfl
  | succ n ih => rw [stepped_succ, ih, stepped_succ]

@[simp]
theorem config_stepped (m : Machine σ α) (n : Nat) : (m.stepped n).config = m.config := by
  induction n with
  | zero => rfl
  | succ n ih => rw [stepped_succ, config_step, ih]

@[simp]
theorem table_stepped (m : Machine σ α) (n : Nat) : (m.stepped n).table = m.table := by
  induction n with
  | zero => rfl
  | succ n ih => rw [stepped_succ, table_step, ih]

@[simp]
theorem stored_stepped (m : Machine σ α) (n : Nat) : (m.stepped n).stored = m.stored := by
  induction n with
  | zero => rfl
  | succ n ih => rw [stepped_succ, stored_step, ih]

@[simp]
theorem isInitialized_stepped (m : Machine σ α) (n : Nat) :
    (m.stepped n).isInitialized = m.isInitialized := by
  rw [isInitialized, stored_stepped, isInitialized]

/-- A run leaves the machine after some number of cycles. -/
theorem runFrom_eq_stepped (applied limit : Nat) (m : Machine σ α) :
    ∃ n, (m.runFrom applied limit).1 = m.stepped n := by
  induction limit generalizing applied m with
  | zero => exact ⟨0, rfl⟩
  | succ limit ih =>
    unfold runFrom
    split
    · split
      · rename_i m' f hstep
        exact ⟨1, by rw [stepped_succ, stepped_zero, hstep]⟩
      · rename_i m' p hstep
        obtain ⟨n, hn⟩ := ih (applied + 1) m'
        exact ⟨n + 1, by rw [hn, stepped_succ', hstep]⟩
    · exact ⟨0, rfl⟩

theorem run_eq_stepped {fuel : Nat} {m m' : Machine σ α} {r : Except Fault Unit}
    (h : m.run fuel = some (m', r)) : ∃ n, m' = m.stepped n := by
  induction fuel generalizing m with
  | zero => cases h
  | succ fuel ih =>
    unfold run at h
    split at h
    · rename_i hstep
      cases h
      exact ⟨1, by rw [stepped_succ, stepped_zero, hstep]⟩
    · rename_i hstep
      cases h
      exact ⟨1, by rw [stepped_succ, stepped_zero, hstep]⟩
    · rename_i hstep
      obtain ⟨n, hn⟩ := ih h
      exact ⟨n + 1, by rw [hn, stepped_succ', hstep]⟩

end TapeMachine.Machine
