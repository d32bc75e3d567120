import TapeMachine.Stack
import TapeMachine.Table
import TapeMachine.Tape

/-!
# Machines

A machine has a state, tapes, stacks and a table of actions. It is built step by step, initialized
once and then run; from initialization on it remembers the contents to go back to. A cycle that
finds no action leaves a fault, which stays until the machine is reset.
-/

namespace TapeMachine

/-- What a failed cycle leaves of the stacks. -/
inductive Mode where
  /-- The symbols popped for the look-up are gone. -/
  | consume
  /-- The stacks are as before the cycle. -/
  | atomic
  deriving DecidableEq, Repr

def Mode.name : Mode → String
  | consume => "consume"
  | atomic => "atomic"

structure Config (σ α : Type) where
  initial : σ
  halt : σ
  /-- The blank and the no-write symbol. -/
  marks : Marks α
  /-- What a failed cycle leaves of the stacks. -/
  mode : Mode
  deriving DecidableEq, Repr

structure Contents (α : Type) where
  tapes : List (Tape α)
  pushdowns : List (Stack α)
  deriving DecidableEq, Repr

/-- A key with one symbol for each tape and one for each stack of some contents. -/
structure Key.Fits {σ α : Type} (key : Key σ α) (c : Contents α) : Prop where
  read : key.read.length = c.tapes.length
  pop : key.pop.length = c.pushdowns.length

/-- A machine with several tapes and several stacks. -/
structure Machine (σ α : Type) where
  config : Config σ α
  table : Table σ α
  state : σ
  contents : Contents α
  /-- The contents at initialization; a machine that is still being built has none. -/
  stored : Option (Contents α)
  /-- The cycles applied since initialization or the last reset. -/
  stepCount : Nat
  /-- The fault of the cycle that failed, until a reset. -/
  fault : Option Fault
  deriving DecidableEq, Repr

namespace Machine

variable {σ α : Type}

/-- A machine to be built. -/
def new (config : Config σ α) : Machine σ α where
  config := config
  table := .empty
  state := config.initial
  contents := ⟨[], []⟩
  stored := none
  stepCount := 0
  fault := none

def isInitialized (m : Machine σ α) : Bool :=
  m.stored.isSome

/-- Tells whether the machine has been initialized and is in its halt state. -/
def isHalted [DecidableEq σ] (m : Machine σ α) : Bool :=
  m.isInitialized && m.state = m.config.halt

def symbols (m : Machine σ α) : List α :=
  m.contents.tapes.map Tape.current

def tops (m : Machine σ α) : List α :=
  m.contents.pushdowns.map Stack.top

/-- The configuration that decides on the next action. -/
def key (m : Machine σ α) : Key σ α :=
  ⟨m.state, m.symbols, m.tops⟩

end Machine

end TapeMachine
