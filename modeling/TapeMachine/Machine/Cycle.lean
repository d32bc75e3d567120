import TapeMachine.Machine.Basic

/-!
# Cycles

A cycle reads every tape and pops every stack, looks up the action for what it found, writes,
pushes and moves as the action says and takes on the next state. Without an action the cycle fails
and the machine keeps the fault: every later cycle fails with it until the machine is reset.
-/

namespace TapeMachine

/-- What a cycle that does not fail has come to. -/
inductive Progress where
  | running (id : ActionId)
  | halted
  deriving DecidableEq, Repr

/-- The action that brought the machine where it is, unless it has halted. -/
def Progress.action? : Progress → Option ActionId
  | running id => some id
  | halted => none

/-- Changes each item by its value. Items without a value stay as they are. -/
def updateEach {β γ : Type} (f : β → γ → β) : List β → List γ → List β
  | x :: xs, v :: vs => f x v :: updateEach f xs vs
  | xs, _ => xs

@[simp]
theorem length_updateEach {β γ : Type} (f : β → γ → β) (xs : List β) (vs : List γ) :
    (updateEach f xs vs).length = xs.length := by
  induction xs generalizing vs with
  | nil => cases vs <;> rfl
  | cons x xs ih => cases vs <;> simp [updateEach, ih]

/-- What the change by each of the values keeps holds of each item afterwards. -/
theorem forall_mem_updateEach {β γ : Type} {f : β → γ → β} {p : β → Prop} {xs : List β}
    {vs : List γ} (h : ∀ x ∈ xs, p x) (hf : ∀ x, ∀ v ∈ vs, p x → p (f x v)) :
    ∀ x ∈ updateEach f xs vs, p x := by
  induction xs generalizing vs with
  | nil => cases vs <;> exact h
  | cons x xs ih =>
    obtain ⟨hx, hxs⟩ := List.forall_mem_cons.mp h
    cases vs with
    | nil => exact h
    | cons v vs =>
      have hrest := ih hxs fun x v hv => hf x v (List.mem_cons_of_mem _ hv)
      exact List.forall_mem_cons.mpr ⟨hf x v List.mem_cons_self hx, hrest⟩

/-- An item with a value is changed by it. -/
theorem getElem?_updateEach {β γ : Type} (f : β → γ → β) {xs : List β} {vs : List γ} {i : Nat}
    {x : β} {v : γ} (hx : xs[i]? = some x) (hv : vs[i]? = some v) :
    (updateEach f xs vs)[i]? = some (f x v) := by
  induction xs generalizing vs i with
  | nil => cases hx
  | cons x' xs ih =>
    cases vs with
    | nil => cases hv
    | cons v' vs =>
      cases i with
      | zero =>
        cases hx
        cases hv
        rfl
      | succ i => exact ih hx hv

theorem updateEach_eq_zipWith {β γ : Type} (f : β → γ → β) {xs : List β} {vs : List γ}
    (h : xs.length = vs.length) : updateEach f xs vs = List.zipWith f xs vs := by
  induction xs generalizing vs with
  | nil => cases vs <;> rfl
  | cons x xs ih =>
    cases vs with
    | nil => cases h
    | cons v vs => simp [updateEach, ih (Nat.succ.inj h)]

namespace Contents

variable {α : Type}

/-- Pops every stack: the symbols, and the contents left. -/
def popEach (c : Contents α) : List α × Contents α :=
  let popped := c.pushdowns.map Stack.pop
  (popped.map Prod.fst, { c with pushdowns := popped.map Prod.snd })

/-- The contents once every stack is popped. -/
def popAll (c : Contents α) : Contents α :=
  { c with pushdowns := c.pushdowns.map Stack.rest }

@[simp]
theorem popEach_fst (c : Contents α) : c.popEach.1 = c.pushdowns.map Stack.top := by
  simp [popEach, Stack.pop, Function.comp_def]

@[simp]
theorem popEach_snd (c : Contents α) : c.popEach.2 = c.popAll := by
  simp [popEach, popAll, Stack.pop, Function.comp_def]

variable [DecidableEq α]

def writeEach (c : Contents α) (values : List α) : Contents α :=
  { c with tapes := updateEach Tape.write c.tapes values }

def pushEach (c : Contents α) (values : List α) : Contents α :=
  { c with pushdowns := updateEach Stack.push c.pushdowns values }

def moveEach (c : Contents α) (directions : List Direction) : Contents α :=
  { c with tapes := updateEach Tape.move c.tapes directions }

/-- The contents after a rule: it writes on the tapes, pushes on the stacks and moves the heads. -/
def apply {σ : Type} (c : Contents α) (r : Rule σ α) : Contents α :=
  ((c.writeEach r.write).pushEach r.push).moveEach r.directions

end Contents

namespace Machine

variable {σ α : Type}

/-! ## What a cycle takes from the stacks -/

/-- The symbols of the stacks to look up with, and the contents if the look-up fails: to consume
is to pop before the look-up, in atomic mode the tops are only looked at. -/
def offered (m : Machine σ α) : List α × Contents α :=
  match m.config.mode with
  | .consume => m.contents.popEach
  | .atomic => (m.tops, m.contents)

/-- The contents that an action is applied to: in atomic mode the stacks are popped only now. -/
def committed (m : Machine σ α) (offered : Contents α) : Contents α :=
  match m.config.mode with
  | .consume => offered
  | .atomic => offered.popEach.2

/-- The contents that a failed cycle leaves. -/
def spoiled (m : Machine σ α) : Contents α :=
  match m.config.mode with
  | .consume => m.contents.popAll
  | .atomic => m.contents

theorem offered_fst (m : Machine σ α) : m.offered.1 = m.tops := by
  unfold offered
  split
  · exact Contents.popEach_fst m.contents
  · rfl

theorem offered_snd (m : Machine σ α) : m.offered.2 = m.spoiled := by
  unfold offered spoiled
  split <;> simp_all

theorem committed_offered (m : Machine σ α) : m.committed m.offered.2 = m.contents.popAll := by
  unfold committed offered
  split <;> simp_all

/-! ## The cycle -/

variable [DecidableEq σ] [DecidableEq α]

def apply (m : Machine σ α) (a : Action σ α) : Machine σ α :=
  { m with
    contents := m.contents.popAll.apply a.rule
    state := a.rule.next
    stepCount := m.stepCount + 1 }

variable [Quoted σ] [Quoted α]

/-- The fault of finding no action for a configuration. -/
def undefinedTransition (key : Key σ α) : Fault :=
  .undefinedTransition (quoted key.state) (quotedTuple key.read) (quotedTuple key.pop)

/-- The machine after a cycle that found no action. -/
def fail (m : Machine σ α) : Machine σ α :=
  { m with contents := m.spoiled, fault := some (undefinedTransition m.key) }

/-- One cycle. On a halted machine it changes nothing. -/
def step (m : Machine σ α) : Machine σ α × Except Fault Progress :=
  if !m.isInitialized then (m, .error .notInitialized)
  else
    match m.fault with
    | some f => (m, .error f)
    | none =>
      if m.isHalted then (m, .ok .halted)
      else
        -- what is popped here is gone if the look-up fails
        let (pop, contents) := m.offered
        let key := ⟨m.state, m.symbols, pop⟩
        match m.table.lookup key with
        | none =>
          let f := undefinedTransition key
          ({ m with contents := contents, fault := some f }, .error f)
        | some a =>
          let m' := { m with
            contents := (m.committed contents).apply a.rule
            state := a.rule.next
            stepCount := m.stepCount + 1 }
          -- the cycle that leads to the halt state counts, but reports no action
          (m', .ok (if m'.state = m'.config.halt then .halted else .running a.id))

/-- The modes differ only in what a failed cycle leaves of the stacks: both look up with the tops,
and both apply an action to the contents whose stacks are popped. -/
theorem step_eq (m : Machine σ α) :
    m.step =
      if !m.isInitialized then (m, .error .notInitialized)
      else
        match m.fault with
        | some f => (m, .error f)
        | none =>
          if m.isHalted then (m, .ok .halted)
          else
            match m.table.lookup m.key with
            | none => (m.fail, .error (undefinedTransition m.key))
            | some a =>
              (m.apply a,
                .ok (if a.rule.next = m.config.halt then .halted else .running a.id)) := by
  have hkey : (⟨m.state, m.symbols, m.offered.1⟩ : Key σ α) = m.key := by
    rw [offered_fst]
    rfl
  simp only [step, hkey, committed_offered]
  simp only [fail, apply, offered_snd]

/-! ## What a cycle comes to -/

/-- A machine whose next cycle looks up an action. -/
structure Live (m : Machine σ α) : Prop where
  initialized : m.isInitialized = true
  unfaulted : m.fault = none
  unhalted : m.isHalted = false

omit [DecidableEq α] [Quoted σ] [Quoted α] in
theorem live_congr {m m' : Machine σ α} (hinitialized : m'.isInitialized = m.isInitialized)
    (hfault : m'.fault = none ↔ m.fault = none) (hhalted : m'.isHalted = m.isHalted) :
    m'.Live ↔ m.Live := by
  constructor
  · rintro ⟨hi, hf, hh⟩
    exact ⟨hinitialized ▸ hi, hfault.mp hf, hhalted ▸ hh⟩
  · rintro ⟨hi, hf, hh⟩
    exact ⟨hinitialized.trans hi, hfault.mpr hf, hhalted.trans hh⟩

theorem step_of_not_initialized {m : Machine σ α} (h : m.isInitialized = false) :
    m.step = (m, .error .notInitialized) := by
  simp [step_eq, h]

theorem step_of_fault {m : Machine σ α} {f : Fault} (hi : m.isInitialized = true)
    (hf : m.fault = some f) : m.step = (m, .error f) := by
  simp [step_eq, hi, hf]

theorem step_of_halted {m : Machine σ α} (hf : m.fault = none) (hh : m.isHalted = true) :
    m.step = (m, .ok .halted) := by
  have hi : m.isInitialized = true := by
    simp only [isHalted, Bool.and_eq_true] at hh
    exact hh.1
  simp [step_eq, hi, hf, hh]

theorem step_of_lookup_some {m : Machine σ α} {a : Action σ α} (h : m.Live)
    (ha : m.table.lookup m.key = some a) :
    m.step = (m.apply a,
      .ok (if a.rule.next = m.config.halt then .halted else .running a.id)) := by
  simp [step_eq, h.initialized, h.unfaulted, h.unhalted, ha]

theorem step_of_lookup_none {m : Machine σ α} (h : m.Live) (ha : m.table.lookup m.key = none) :
    m.step = (m.fail, .error (undefinedTransition m.key)) := by
  simp [step_eq, h.initialized, h.unfaulted, h.unhalted, ha]

omit [DecidableEq α] [Quoted σ] [Quoted α] in
theorem isHalted_of_not_live {m : Machine σ α} (h : ¬m.Live) (hi : m.isInitialized = true)
    (hf : m.fault = none) : m.isHalted = true := by
  cases hh : m.isHalted with
  | true => rfl
  | false => exact absurd ⟨hi, hf, hh⟩ h

theorem step_of_not_live {m : Machine σ α} (h : ¬m.Live) : m.step.1 = m := by
  cases hi : m.isInitialized with
  | false => rw [step_of_not_initialized hi]
  | true =>
    cases hf : m.fault with
    | some f => rw [step_of_fault hi hf]
    | none => rw [step_of_halted hf (isHalted_of_not_live h hi hf)]

/-- The answer of a machine that looks up no action is told by whether it has been initialized and how it
has failed. -/
theorem answer_congr_of_not_live {m m' : Machine σ α} (h : ¬m.Live) (h' : ¬m'.Live)
    (hinitialized : m'.isInitialized = m.isInitialized) (hfault : m'.fault = m.fault) :
    m'.step.2 = m.step.2 := by
  cases hi : m.isInitialized with
  | false =>
    rw [step_of_not_initialized hi, step_of_not_initialized (hinitialized.trans hi)]
  | true =>
    have hi' := hinitialized.trans hi
    cases hf : m.fault with
    | some f => rw [step_of_fault hi hf, step_of_fault hi' (hfault.trans hf)]
    | none =>
      have hf' := hfault.trans hf
      rw [step_of_halted hf (isHalted_of_not_live h hi hf),
        step_of_halted hf' (isHalted_of_not_live h' hi' hf')]

/-- All that a cycle can do to a machine. -/
theorem step_cases (m : Machine σ α) :
    (¬m.Live ∧ m.step.1 = m) ∨
      (∃ a, m.Live ∧ m.table.lookup m.key = some a ∧ m.step.1 = m.apply a) ∨
        (m.Live ∧ m.table.lookup m.key = none ∧ m.step.1 = m.fail) := by
  by_cases h : m.Live
  · cases ha : m.table.lookup m.key with
    | some a => exact .inr (.inl ⟨a, h, rfl, by rw [step_of_lookup_some h ha]⟩)
    | none => exact .inr (.inr ⟨h, rfl, by rw [step_of_lookup_none h ha]⟩)
  · exact .inl ⟨h, step_of_not_live h⟩

@[simp]
theorem config_step (m : Machine σ α) : m.step.1.config = m.config := by
  rcases m.step_cases with ⟨_, h⟩ | ⟨a, _, _, h⟩ | ⟨_, _, h⟩ <;> rw [h] <;> rfl

@[simp]
theorem table_step (m : Machine σ α) : m.step.1.table = m.table := by
  rcases m.step_cases with ⟨_, h⟩ | ⟨a, _, _, h⟩ | ⟨_, _, h⟩ <;> rw [h] <;> rfl

@[simp]
theorem stored_step (m : Machine σ α) : m.step.1.stored = m.stored := by
  rcases m.step_cases with ⟨_, h⟩ | ⟨a, _, _, h⟩ | ⟨_, _, h⟩ <;> rw [h] <;> rfl

end Machine

end TapeMachine
