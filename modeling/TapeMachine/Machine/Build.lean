import TapeMachine.Machine.Basic

/-!
# Building machines

Tapes, stacks and actions are added one by one until initialization, which succeeds once: when there
is a tape and an action, and every action fits the numbers of tapes and stacks. Each call gives the
machine that it leaves beside its answer, also where it is refused. All checks of a call come before
its changes, so a refused call leaves the machine as it was (`eq_of_init_eq_error` and the like),
and one refused by `init` can be completed later.
-/

namespace TapeMachine.Machine

variable {σ α : Type}

/-- Refuses a machine that has been initialized. -/
def ensureBuilding (m : Machine σ α) : Except Fault Unit :=
  if m.isInitialized then .error .alreadyInitialized else .ok ()

/-- Appends a tape with the head on its first cell. -/
def addTape (m : Machine σ α) (content : List α) : Machine σ α × Except Fault Unit :=
  match m.ensureBuilding with
  | .error f => (m, .error f)
  | .ok () =>
    let tape : Tape α := .ofList m.config.marks content
    ({ m with contents.tapes := m.contents.tapes ++ [tape] }, .ok ())

/-- Appends a stack, whose content is given from the bottom up. -/
def addStack (m : Machine σ α) (content : List α) : Machine σ α × Except Fault Unit :=
  match m.ensureBuilding with
  | .error f => (m, .error f)
  | .ok () =>
    let stack : Stack α := .ofList m.config.marks content
    ({ m with contents.pushdowns := m.contents.pushdowns ++ [stack] }, .ok ())

/-- Registers an action. The machine keeps the table that the registration leaves. -/
def addAction [DecidableEq σ] [DecidableEq α] [Quoted σ] (m : Machine σ α) (rule : Rule σ α) :
    Machine σ α × Except Fault ActionId :=
  match m.ensureBuilding with
  | .error f => (m, .error f)
  | .ok () =>
    let registration := m.table.register rule
    ({ m with table := registration.1 }, registration.2)

/-- The fault of an action that does not fit the numbers of tapes and stacks. -/
def shapeFault? [Quoted σ] (m : Machine σ α) (a : Action σ α) : Option Fault :=
  let key := a.rule.key
  arityFault? key.state .read m.contents.tapes.length key.read.length
    <|> arityFault? key.state .pop m.contents.pushdowns.length key.pop.length

/-- Puts the machine in its initial state and remembers its contents. The first action in the listing
that does not fit is reported. -/
def initThrough [Quoted σ] (listing : Listing σ α) (m : Machine σ α) :
    Machine σ α × Except Fault Unit :=
  match m.ensureBuilding with
  | .error f => (m, .error f)
  | .ok () =>
    if m.contents.tapes.isEmpty then (m, .error .noTapes)
    else if m.table.isEmpty then (m, .error .noActions)
    else
      match (listing.list m.table).findSome? m.shapeFault? with
      | some f => (m, .error f)
      | none =>
        ({ m with state := m.config.initial, stepCount := 0, stored := some m.contents }, .ok ())

/-- Puts the machine in its initial state and remembers its contents. A table lists its actions in no
particular order, so of several that do not fit any may be reported; here it is the one that was
registered last, as good as any other. -/
def init [Quoted σ] (m : Machine σ α) : Machine σ α × Except Fault Unit :=
  m.initThrough .latestFirst

/-! ## What a call that succeeds does -/

theorem ensureBuilding_eq_ok_iff {m : Machine σ α} :
    m.ensureBuilding = .ok () ↔ m.isInitialized = false := by
  unfold ensureBuilding
  cases m.isInitialized <;> simp

theorem addTape_eq_ok_iff {m m' : Machine σ α} {content : List α} :
    m.addTape content = (m', .ok ()) ↔
      m.isInitialized = false ∧
        m' = { m with contents.tapes := m.contents.tapes ++ [.ofList m.config.marks content] } := by
  rw [← ensureBuilding_eq_ok_iff, addTape]
  cases m.ensureBuilding <;> simp [@eq_comm _ m']

theorem addStack_eq_ok_iff {m m' : Machine σ α} {content : List α} :
    m.addStack content = (m', .ok ()) ↔
      m.isInitialized = false ∧
        m' = { m with
          contents.pushdowns := m.contents.pushdowns ++ [.ofList m.config.marks content] } := by
  rw [← ensureBuilding_eq_ok_iff, addStack]
  cases m.ensureBuilding <;> simp [@eq_comm _ m']

theorem addAction_eq_ok_iff [DecidableEq σ] [DecidableEq α] [Quoted σ] {m m' : Machine σ α}
    {rule : Rule σ α} {id : ActionId} :
    m.addAction rule = (m', .ok id) ↔
      m.isInitialized = false ∧ rule.Balanced ∧ id = ⟨m.table.registered⟩ ∧
        m' = { m with table := m.table.insert rule } := by
  rw [← ensureBuilding_eq_ok_iff, addAction]
  cases m.ensureBuilding with
  | error f => simp
  | ok u =>
    by_cases h : rule.Balanced
    · simp [m.table.register_of_balanced h, h, @eq_comm _ m', @eq_comm _ id, and_comm]
    · obtain ⟨f, -, hregister⟩ := m.table.register_of_not_balanced h
      simp [hregister, h]

theorem shapeFault?_eq_none_iff [Quoted σ] {m : Machine σ α} {a : Action σ α} :
    m.shapeFault? a = none ↔ a.rule.key.Fits m.contents := by
  simp only [shapeFault?, Option.orElse_eq_orElse, Option.orElse_eq_or, Option.or_eq_none_iff,
    arityFault?_eq_none_iff]
  constructor
  · rintro ⟨hread, hpop⟩
    exact ⟨hread.symm, hpop.symm⟩
  · rintro ⟨hread, hpop⟩
    exact ⟨hread.symm, hpop.symm⟩

/-- Whether an action is found that does not fit does not depend on the listing. -/
theorem findSome?_shapeFault?_eq_none_iff [Quoted σ] {m : Machine σ α} (listing : Listing σ α) :
    (listing.list m.table).findSome? m.shapeFault? = none ↔
      ∀ a ∈ m.table.actions, a.rule.key.Fits m.contents := by
  simp only [List.findSome?_eq_none_iff, (listing.perm m.table).mem_iff, shapeFault?_eq_none_iff]

theorem initThrough_eq_ok_iff [Quoted σ] {m m' : Machine σ α} (listing : Listing σ α) :
    m.initThrough listing = (m', .ok ()) ↔
      m.isInitialized = false ∧ m.contents.tapes ≠ [] ∧ m.table.actions ≠ [] ∧
        (∀ a ∈ m.table.actions, a.rule.key.Fits m.contents) ∧
          m' = { m with state := m.config.initial, stepCount := 0, stored := some m.contents } := by
  rw [← ensureBuilding_eq_ok_iff, ← findSome?_shapeFault?_eq_none_iff listing, initThrough]
  cases m.ensureBuilding with
  | error f => simp
  | ok u =>
    by_cases htapes : m.contents.tapes = []
    · simp [htapes]
    · by_cases hactions : m.table.actions = []
      · simp [htapes, hactions, Table.isEmpty]
      · cases (listing.list m.table).findSome? m.shapeFault? with
        | some f => simp [htapes, hactions, Table.isEmpty]
        | none => simp [htapes, hactions, Table.isEmpty, @eq_comm _ m']

theorem init_eq_ok_iff [Quoted σ] {m m' : Machine σ α} :
    m.init = (m', .ok ()) ↔
      m.isInitialized = false ∧ m.contents.tapes ≠ [] ∧ m.table.actions ≠ [] ∧
        (∀ a ∈ m.table.actions, a.rule.key.Fits m.contents) ∧
          m' = { m with state := m.config.initial, stepCount := 0, stored := some m.contents } :=
  initThrough_eq_ok_iff .latestFirst

/-! ## What a call that is refused leaves -/

theorem eq_of_addTape_eq_error {m m' : Machine σ α} {content : List α} {f : Fault}
    (h : m.addTape content = (m', .error f)) : m' = m := by
  unfold addTape at h
  split at h
  · cases h
    rfl
  · cases h

theorem eq_of_addStack_eq_error {m m' : Machine σ α} {content : List α} {f : Fault}
    (h : m.addStack content = (m', .error f)) : m' = m := by
  unfold addStack at h
  split at h
  · cases h
    rfl
  · cases h

/-- A registration that the table refuses has not changed the table. -/
theorem eq_of_addAction_eq_error [DecidableEq σ] [DecidableEq α] [Quoted σ] {m m' : Machine σ α}
    {rule : Rule σ α} {f : Fault} (h : m.addAction rule = (m', .error f)) : m' = m := by
  unfold addAction at h
  split at h
  · cases h
    rfl
  · by_cases hrule : rule.Balanced
    · rw [m.table.register_of_balanced hrule] at h
      cases h
    · obtain ⟨f', -, hregister⟩ := m.table.register_of_not_balanced hrule
      rw [hregister] at h
      cases h
      rfl

theorem eq_of_initThrough_eq_error [Quoted σ] {m m' : Machine σ α} {listing : Listing σ α}
    {f : Fault} (h : m.initThrough listing = (m', .error f)) : m' = m := by
  unfold initThrough at h
  split at h
  · cases h
    rfl
  · split at h
    · cases h
      rfl
    · split at h
      · cases h
        rfl
      · split at h
        · cases h
          rfl
        · cases h

/-! ## What no call but a registration touches -/

@[simp]
theorem table_addTape (m : Machine σ α) (content : List α) :
    (m.addTape content).1.table = m.table := by
  unfold addTape
  split <;> rfl

@[simp]
theorem table_addStack (m : Machine σ α) (content : List α) :
    (m.addStack content).1.table = m.table := by
  unfold addStack
  split <;> rfl

@[simp]
theorem table_init [Quoted σ] (m : Machine σ α) : m.init.1.table = m.table := by
  rcases hinit : m.init with ⟨m', result⟩
  cases result with
  | ok u =>
    rw [(init_eq_ok_iff.mp hinit).2.2.2.2]
  | error f =>
    rw [eq_of_initThrough_eq_error hinit]

/-! ## Calls after the initialization -/

section

variable {m : Machine σ α} (h : m.isInitialized = true)

include h

theorem ensureBuilding_of_initialized : m.ensureBuilding = .error .alreadyInitialized := by
  rw [ensureBuilding, h, if_pos rfl]

theorem addTape_of_initialized (content : List α) :
    m.addTape content = (m, .error .alreadyInitialized) := by
  rw [addTape, ensureBuilding_of_initialized h]

theorem addStack_of_initialized (content : List α) :
    m.addStack content = (m, .error .alreadyInitialized) := by
  rw [addStack, ensureBuilding_of_initialized h]

theorem addAction_of_initialized [DecidableEq σ] [DecidableEq α] [Quoted σ] (rule : Rule σ α) :
    m.addAction rule = (m, .error .alreadyInitialized) := by
  rw [addAction, ensureBuilding_of_initialized h]

theorem init_of_initialized [Quoted σ] : m.init = (m, .error .alreadyInitialized) := by
  rw [init, initThrough, ensureBuilding_of_initialized h]

end

end TapeMachine.Machine
