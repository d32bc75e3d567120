import TapeMachine.Direction

/-!
# Transition tables

A table maps a state, the symbols under the heads and the symbols popped from the stacks to the
action to take. Registering a key again replaces its action. Every registration gets the next
identifier, also one that replaces another.
-/

namespace TapeMachine

/-- The number of a registration, counted from zero. -/
structure ActionId where
  index : Nat
  deriving DecidableEq, Repr

instance : ToString ActionId where
  toString id := s!"#{id.index}"

/-- The configuration that an action is for. -/
structure Key (σ α : Type) where
  state : σ
  /-- One symbol per tape. -/
  read : List α
  /-- One symbol per stack. -/
  pop : List α
  deriving DecidableEq, Repr

/-- What to do in a configuration. -/
structure Rule (σ α : Type) where
  key : Key σ α
  /-- One symbol per tape, to be written. -/
  write : List α
  /-- One symbol per stack, to be pushed. -/
  push : List α
  /-- One move per tape. -/
  directions : List Direction
  next : σ
  deriving DecidableEq, Repr

structure Action (σ α : Type) where
  id : ActionId
  rule : Rule σ α
  deriving DecidableEq, Repr

/-- The fault of a part with the wrong number of values, if it has. -/
def arityFault? {σ : Type} [Quoted σ] (state : σ) (part : ActionPart) (expected found : Nat) :
    Option Fault :=
  if expected = found then none else some (.arityMismatch (quoted state) part expected found)

/-- The first part of a rule that does not have one value for each symbol read or popped. -/
def Rule.arityFault? {σ α : Type} [Quoted σ] (r : Rule σ α) : Option Fault :=
  let check := TapeMachine.arityFault? r.key.state
  check .write r.key.read.length r.write.length
    <|> check .direction r.key.read.length r.directions.length
    <|> check .push r.key.pop.length r.push.length

/-- A rule that writes and moves once for each symbol read and pushes once for each symbol popped. -/
structure Rule.Balanced {σ α : Type} (r : Rule σ α) : Prop where
  write : r.write.length = r.key.read.length
  directions : r.directions.length = r.key.read.length
  push : r.push.length = r.key.pop.length

theorem arityFault?_eq_none_iff {σ : Type} [Quoted σ] {state : σ} {part : ActionPart}
    {expected found : Nat} :
    arityFault? state part expected found = none ↔ expected = found := by
  simp [arityFault?]

/-- A rule without an arity fault is balanced, and the other way round. -/
theorem Rule.arityFault?_eq_none_iff {σ α : Type} [Quoted σ] {r : Rule σ α} :
    r.arityFault? = none ↔ r.Balanced := by
  simp only [Rule.arityFault?, Option.orElse_eq_orElse, Option.orElse_eq_or, Option.or_eq_none_iff,
    TapeMachine.arityFault?_eq_none_iff]
  constructor
  · rintro ⟨hwrite, hdirections, hpush⟩
    exact ⟨hwrite.symm, hdirections.symm, hpush.symm⟩
  · rintro ⟨hwrite, hdirections, hpush⟩
    exact ⟨hwrite.symm, hdirections.symm, hpush.symm⟩

/-- A transition table. -/
structure Table (σ α : Type) where
  /-- One action per key, the latest first. No call shows this order: what goes through all actions takes
  a `Listing` of them. -/
  actions : List (Action σ α)
  /-- How many registrations have succeeded. -/
  registered : Nat
  deriving DecidableEq, Repr

namespace Table

variable {σ α : Type}

def empty : Table σ α :=
  ⟨[], 0⟩

def size (t : Table σ α) : Nat :=
  t.actions.length

def isEmpty (t : Table σ α) : Bool :=
  t.actions.isEmpty

end Table

/-- An order in which the actions of a table are gone through; tables do not promise any. -/
structure Listing (σ α : Type) where
  list : Table σ α → List (Action σ α)
  perm : ∀ t, (list t).Perm t.actions

/-- The actions as they are stored. -/
def Listing.latestFirst {σ α : Type} : Listing σ α :=
  ⟨Table.actions, fun _ => .refl _⟩

namespace Table

variable {σ α : Type} [DecidableEq σ] [DecidableEq α]

/-- The action for exactly this configuration. -/
def lookup (t : Table σ α) (key : Key σ α) : Option (Action σ α) :=
  t.actions.find? fun a => a.rule.key = key

/-- The table with a rule in place of the one with the same key. -/
def insert (t : Table σ α) (rule : Rule σ α) : Table σ α :=
  let others := t.actions.filter fun a => a.rule.key ≠ rule.key
  ⟨⟨⟨t.registered⟩, rule⟩ :: others, t.registered + 1⟩

/-- The table after a call to register a rule, and what the call answers: a rule whose parts have the
right numbers of values gets the next identifier. -/
def register [Quoted σ] (t : Table σ α) (rule : Rule σ α) : Table σ α × Except Fault ActionId :=
  match rule.arityFault? with
  | some f => (t, .error f)
  | none => (t.insert rule, .ok ⟨t.registered⟩)

/-! ## What a registration does -/

@[simp]
theorem lookup_empty (key : Key σ α) : (empty : Table σ α).lookup key = none := rfl

@[simp]
theorem registered_insert (t : Table σ α) (rule : Rule σ α) :
    (t.insert rule).registered = t.registered + 1 := rfl

theorem lookup_insert (t : Table σ α) (rule : Rule σ α) (key : Key σ α) :
    (t.insert rule).lookup key =
      if rule.key = key then some ⟨⟨t.registered⟩, rule⟩ else t.lookup key := by
  unfold lookup insert
  by_cases h : rule.key = key
  · simp [h]
  · have hother : ∀ a : Action σ α, a.rule.key = key → a.rule.key ≠ rule.key := by
      intro a ha hr
      exact h (hr.symm.trans ha)
    simp only [List.find?_cons, h, decide_false, if_false, List.find?_filter]
    congr 1
    funext a
    by_cases ha : a.rule.key = key
    · simp [ha, Ne.symm h]
    · simp [ha]

theorem mem_insert {t : Table σ α} {rule : Rule σ α} {a : Action σ α}
    (h : a ∈ (t.insert rule).actions) : a.rule = rule ∨ a ∈ t.actions := by
  rcases List.mem_cons.mp h with rfl | hother
  · exact .inl rfl
  · exact .inr (List.mem_filter.mp hother).1

/-- A rule that is inserted adds its key and takes none away. -/
theorem exists_mem_insert_iff {t : Table σ α} {rule : Rule σ α} {key : Key σ α} :
    (∃ a ∈ (t.insert rule).actions, a.rule.key = key) ↔
      rule.key = key ∨ ∃ a ∈ t.actions, a.rule.key = key := by
  by_cases h : rule.key = key
  · simp [insert, h]
  · simp only [insert, List.mem_cons, List.mem_filter, exists_eq_or_imp, h, false_or]
    constructor
    · rintro ⟨a, ⟨ha, -⟩, hkey⟩
      exact ⟨a, ha, hkey⟩
    · rintro ⟨a, ha, rfl⟩
      exact ⟨a, ⟨ha, by simpa using Ne.symm h⟩, rfl⟩

theorem mem_of_lookup {t : Table σ α} {key : Key σ α} {a : Action σ α}
    (h : t.lookup key = some a) : a ∈ t.actions :=
  List.mem_of_find?_eq_some h

theorem key_of_lookup {t : Table σ α} {key : Key σ α} {a : Action σ α}
    (h : t.lookup key = some a) : a.rule.key = key := by
  simpa using List.find?_some h

/-! ## What a registration comes to -/

section

variable [Quoted σ] {rule : Rule σ α}

/-- A registration succeeds if the rule is balanced -/
theorem register_of_balanced (t : Table σ α) (h : rule.Balanced) :
    t.register rule = (t.insert rule, .ok ⟨t.registered⟩) := by
  rw [register, Rule.arityFault?_eq_none_iff.mpr h]

/-- and is refused otherwise, which leaves the table as it is. -/
theorem register_of_not_balanced (t : Table σ α) (h : ¬rule.Balanced) :
    ∃ f, rule.arityFault? = some f ∧ t.register rule = (t, .error f) := by
  cases hf : rule.arityFault? with
  | none => exact absurd (Rule.arityFault?_eq_none_iff.mp hf) h
  | some f => exact ⟨f, rfl, by rw [register, hf]⟩

end

end Table

end TapeMachine
