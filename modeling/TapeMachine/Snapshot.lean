import TapeMachine.Machine.Basic

/-!
# Snapshots

What an observer is shown of a machine between two cycles.
-/

namespace TapeMachine

/-- Where a run stands. -/
inductive Status where
  /-- An action was applied and the machine goes on. -/
  | running
  | halted
  | cancelled
  | failed (fault : Fault)
  deriving DecidableEq, Repr

/-- Tells whether nothing follows a status. -/
def Status.isTerminal : Status → Bool
  | running => false
  | _ => true

/-- The state and contents of a machine at one point of a run. -/
structure Snapshot (σ α : Type) where
  state : σ
  contents : Contents α
  stepCount : Nat
  /-- The action of the cycle just applied, if there is one to report. -/
  action : Option ActionId
  status : Status
  deriving DecidableEq, Repr

def Snapshot.isTerminal {σ α : Type} (s : Snapshot σ α) : Bool :=
  s.status.isTerminal

/-- What is to be seen of a machine now. -/
def Machine.snapshot {σ α : Type} (m : Machine σ α) (action : Option ActionId) (status : Status) :
    Snapshot σ α :=
  ⟨m.state, m.contents, m.stepCount, action, status⟩

end TapeMachine
