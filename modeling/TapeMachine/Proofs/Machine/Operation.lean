import Mathlib.Logic.Relation
import TapeMachine.Machine.Build
import TapeMachine.Machine.Run

/-!
# Histories of a machine

The calls on a machine as data, so that a history is a list of calls (`Machine.after`), and all that
a call can do to a machine as one relation (`Machine.Change`):

* every call, refused or not, is a chain of changes (`changes_perform`);
* so what every change keeps holds after every history (`after_induction`).

The history also tells which rules were registered and in which order (`Machine.accepted`).
-/

namespace TapeMachine

open Relation

/-- The calls that can change a machine. -/
inductive Operation (σ α : Type) where
  | addTape (content : List α)
  | addStack (content : List α)
  | addAction (rule : Rule σ α)
  | init
  | step
  | runFor (limit : Nat)
  /-- A run that ends within so many cycles. One that does not has not come back. -/
  | run (fuel : Nat)
  | reset

/-- What a call that is not refused answers. -/
inductive Answer where
  | done
  | registered (id : ActionId)
  | progress (p : Progress)
  | applied (cycles : Nat)
  /-- The call has not come back. -/
  | pending
  deriving DecidableEq, Repr

namespace Machine

variable {σ α : Type}

variable [DecidableEq σ] [DecidableEq α] [Quoted σ] [Quoted α]

/-- The machine after a call, and what the call answers. -/
def perform (m : Machine σ α) : Operation σ α → Machine σ α × Except Fault Answer
  | .addTape content => ((m.addTape content).1, (m.addTape content).2.map fun _ => .done)
  | .addStack content => ((m.addStack content).1, (m.addStack content).2.map fun _ => .done)
  | .addAction rule => ((m.addAction rule).1, (m.addAction rule).2.map .registered)
  | .init => (m.init.1, m.init.2.map fun _ => .done)
  | .step => (m.step.1, m.step.2.map .progress)
  | .runFor limit => ((m.runFor limit).1, (m.runFor limit).2.map .applied)
  | .run fuel =>
    match m.run fuel with
    | some (m', result) => (m', result.map fun _ => .done)
    | none => (m, .ok .pending)
  | .reset => (m.reset.1, m.reset.2.map fun _ => .done)

/-- The machine after a history of calls. -/
def after (m : Machine σ α) : List (Operation σ α) → Machine σ α
  | [] => m
  | op :: ops => (m.perform op).1.after ops

/-- The rule that a call registers, if it does. -/
def accepted? (m : Machine σ α) : Operation σ α → Option (Rule σ α)
  | .addAction rule =>
    match (m.addAction rule).2 with
    | .ok _ => some rule
    | .error _ => none
  | _ => none

/-- The rules that a history of calls registers, in their order. -/
def accepted (m : Machine σ α) : List (Operation σ α) → List (Rule σ α)
  | [] => []
  | op :: ops => (m.accepted? op).toList ++ (m.perform op).1.accepted ops

/-! ## Changes -/

/-- What a call does to a machine at one time. -/
inductive Change : Machine σ α → Machine σ α → Prop
  | tape {m : Machine σ α} (content : List α) : m.isInitialized = false →
      Change m
        { m with contents.tapes := m.contents.tapes ++ [.ofList m.config.marks content] }
  | stack {m : Machine σ α} (content : List α) : m.isInitialized = false →
      Change m
        { m with contents.pushdowns := m.contents.pushdowns ++ [.ofList m.config.marks content] }
  | action {m : Machine σ α} {rule : Rule σ α} : m.isInitialized = false → rule.Balanced →
      Change m { m with table := m.table.insert rule }
  | init {m : Machine σ α} : m.isInitialized = false → m.contents.tapes ≠ [] →
      m.table.actions ≠ [] → (∀ a ∈ m.table.actions, a.rule.key.Fits m.contents) →
      Change m { m with state := m.config.initial, stepCount := 0, stored := some m.contents }
  | apply {m : Machine σ α} {a : Action σ α} : m.Live → m.table.lookup m.key = some a →
      Change m (m.apply a)
  | fail {m : Machine σ α} : m.Live → m.table.lookup m.key = none → Change m m.fail
  | reset {m : Machine σ α} {c : Contents α} : m.stored = some c →
      Change m
        { m with contents := c, state := m.config.initial, stepCount := 0, fault := none }

/-- What still can be done to a machine once it is initialized. -/
theorem Change.cases_of_initialized {m m' : Machine σ α} (h : Change m m')
    (hi : m.isInitialized = true) :
    (∃ a, m.Live ∧ m.table.lookup m.key = some a ∧ m' = m.apply a) ∨
      (m.Live ∧ m.table.lookup m.key = none ∧ m' = m.fail) ∨
        ∃ c, m.stored = some c ∧
          m' = { m with contents := c, state := m.config.initial, stepCount := 0, fault := none } := by
  cases h with
  | tape content hbuilding => cases hbuilding.symm.trans hi
  | stack content hbuilding => cases hbuilding.symm.trans hi
  | action hbuilding hbalanced => cases hbuilding.symm.trans hi
  | init hbuilding htapes hactions hfits => cases hbuilding.symm.trans hi
  | apply hlive ha => exact .inl ⟨_, hlive, ha, rfl⟩
  | fail hlive ha => exact .inr (.inl ⟨hlive, ha, rfl⟩)
  | reset hstored => exact .inr (.inr ⟨_, hstored, rfl⟩)

/-- A call that is one change where it succeeds, and none where it is refused. -/
theorem changes_of_call {β : Type} {m : Machine σ α} {call : Machine σ α × Except Fault β}
    (hok : ∀ m' b, call = (m', .ok b) → Change m m')
    (herror : ∀ m' f, call = (m', .error f) → m' = m) : ReflTransGen Change m call.1 := by
  obtain ⟨m', result⟩ := call
  cases result with
  | ok b => exact .single (hok m' b rfl)
  | error f =>
    rw [herror m' f rfl]

theorem changes_step (m : Machine σ α) : ReflTransGen Change m m.step.1 := by
  rcases m.step_cases with ⟨_, h⟩ | ⟨a, hlive, ha, h⟩ | ⟨hlive, ha, h⟩
  · rw [h]
  · rw [h]
    exact .single (.apply hlive ha)
  · rw [h]
    exact .single (.fail hlive ha)

theorem changes_stepped (m : Machine σ α) (n : Nat) : ReflTransGen Change m (m.stepped n) := by
  induction n with
  | zero => exact .refl
  | succ n ih => exact ih.trans (changes_step _)

/-- Every call is a chain of changes, also one that is refused or fails. -/
theorem changes_perform (m : Machine σ α) (op : Operation σ α) :
    ReflTransGen Change m (m.perform op).1 := by
  cases op with
  | addTape content =>
    show ReflTransGen Change m (m.addTape content).1
    refine changes_of_call (fun m' _ h => ?_) fun m' f => eq_of_addTape_eq_error
    obtain ⟨hbuilding, rfl⟩ := addTape_eq_ok_iff.mp h
    exact .tape content hbuilding
  | addStack content =>
    show ReflTransGen Change m (m.addStack content).1
    refine changes_of_call (fun m' _ h => ?_) fun m' f => eq_of_addStack_eq_error
    obtain ⟨hbuilding, rfl⟩ := addStack_eq_ok_iff.mp h
    exact .stack content hbuilding
  | addAction rule =>
    show ReflTransGen Change m (m.addAction rule).1
    refine changes_of_call (fun m' id h => ?_) fun m' f => eq_of_addAction_eq_error
    obtain ⟨hbuilding, hbalanced, rfl, rfl⟩ := addAction_eq_ok_iff.mp h
    exact .action hbuilding hbalanced
  | init =>
    show ReflTransGen Change m m.init.1
    refine changes_of_call (fun m' _ h => ?_) fun m' f => eq_of_initThrough_eq_error
    obtain ⟨hbuilding, htapes, hactions, hfits, rfl⟩ := init_eq_ok_iff.mp h
    exact .init hbuilding htapes hactions hfits
  | step => exact changes_step m
  | runFor limit =>
    -- a run is some number of cycles, whatever stops it
    obtain ⟨n, hn⟩ := m.runFrom_eq_stepped 0 limit
    simp only [perform, runFor, hn]
    exact changes_stepped m n
  | run fuel =>
    simp only [perform]
    split
    · rename_i m' result h
      obtain ⟨n, rfl⟩ := run_eq_stepped h
      exact changes_stepped m n
    · exact .refl
  | reset =>
    show ReflTransGen Change m m.reset.1
    refine changes_of_call (fun m' _ h => ?_) fun m' f => eq_of_reset_eq_error
    obtain ⟨c, hstored, rfl⟩ := reset_eq_ok_iff.mp h
    exact .reset hstored

theorem changes_after (m : Machine σ α) (ops : List (Operation σ α)) :
    ReflTransGen Change m (m.after ops) := by
  induction ops generalizing m with
  | nil => exact .refl
  | cons op ops ih => exact (changes_perform m op).trans (ih _)

/-- What every change keeps holds after every chain of changes. -/
theorem changes_induction {P : Machine σ α → Prop} {m m' : Machine σ α}
    (hchange : ∀ m m', P m → Change m m' → P m') (h : P m) (hchain : ReflTransGen Change m m') :
    P m' := by
  induction hchain with
  | refl => exact h
  | tail _ hlast ih => exact hchange _ _ ih hlast

/-- What every change keeps holds after every history. -/
theorem after_induction {P : Machine σ α → Prop} {m : Machine σ α} (ops : List (Operation σ α))
    (hchange : ∀ m m', P m → Change m m' → P m') (h : P m) : P (m.after ops) :=
  changes_induction hchange h (changes_after m ops)

theorem after_append (m : Machine σ α) (ops more : List (Operation σ α)) :
    m.after (ops ++ more) = (m.after ops).after more := by
  induction ops generalizing m with
  | nil => rfl
  | cons op ops ih => exact ih _

end Machine

end TapeMachine
