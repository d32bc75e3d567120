import TapeMachine.Machine.Cycle
import TapeMachine.Snapshot

/-!
# Sessions

A session runs a machine in the background. Its handle can start one worker, which takes the machine
along and shows an observer a snapshot after each cycle; the handle pauses, cancels and waits for
the worker, and has the machine back once it has collected an ended worker. Handle and worker share
nothing but the controls. Their steps may be interleaved in any way, so each is a function on the
whole session: those of the worker are in `Session.advance`, the calls on the handle beside it.
-/

namespace TapeMachine

/-- How fast a worker goes. -/
inductive Speed where
  | unlimited
  /-- So many cycles per second at most. -/
  | perSecond (cycles : Nat) (positive : 0 < cycles)
  deriving DecidableEq, Repr

/-- The delay after each cycle in whole nanoseconds. -/
def Speed.delay? : Speed → Option Nat
  | unlimited => none
  | perSecond cycles _ => some (1000000000 / cycles)

/-- What the handle tells the worker. -/
structure Controls where
  /-- Closes the gate before the next cycle. -/
  paused : Bool
  /-- Opens the gate for good and ends the run there. -/
  cancelled : Bool
  speed : Speed
  deriving DecidableEq, Repr

/-- Tells whether a worker at the gate has to wait. -/
def Controls.isHeld (c : Controls) : Bool :=
  c.paused && !c.cancelled

/-- What an observer leaves behind when it panics. -/
inductive Panic where
  | message (text : String)
  | other
  deriving DecidableEq, Repr

def Panic.reason : Panic → String
  | message text => text
  | other => "worker panicked"

/-- How an observer's calls end, which are numbered from one: with a panic or, for `none`, by
returning. -/
abbrev Observer (σ α : Type) := (call : Nat) → Snapshot σ α → Option Panic

/-- Where a worker is between two of its steps. -/
inductive Phase (σ α : Type) where
  /-- Before the gate of the next cycle. -/
  | gate
  /-- Past the gate, with the cycle still to be run. -/
  | cycle
  | notify (snapshot : Snapshot σ α)
  /-- In the observer's call, which will end as told; `last` if the snapshot was terminal. -/
  | observing (last : Bool) (ending : Option Panic)
  | throttle
  deriving DecidableEq, Repr

/-- A worker that has not ended. -/
structure Worker (σ α : Type) where
  machine : Machine σ α
  observer : Observer σ α
  phase : Phase σ α

/-- A worker that has been started and is not collected yet. -/
inductive Thread (σ α : Type) where
  | alive (worker : Worker σ α)
  /-- It has ended with the machine. -/
  | finished (machine : Machine σ α)
  /-- It has panicked, and the machine is lost. -/
  | panicked (panic : Panic)

/-- The calls on the handle that wait for the worker to end. -/
inductive Request where
  | join
  /-- Cancels and collects the worker and gives the machine away with the session. -/
  | intoMachine
  /-- Cancels and collects the worker and gives the session up. -/
  | drop
  deriving DecidableEq, Repr

/-- What the handle is doing. -/
inductive Handle where
  | ready
  | waiting (request : Request)
  | gone
  deriving DecidableEq, Repr

/-- A session: the handle, the worker if there is one, and what the observer has been shown. -/
structure Session (σ α : Type) where
  /-- The machine, while the handle has it. -/
  machine? : Option (Machine σ α)
  /-- The worker, until it is collected. -/
  worker? : Option (Thread σ α)
  controls : Controls
  started : Bool
  handle : Handle
  /-- The snapshots shown so far, oldest first. -/
  delivered : Array (Snapshot σ α)

namespace Session

variable {σ α : Type}

/-- A session for an initialized machine. -/
def new (m : Machine σ α) (speed : Speed) : Except Fault (Session σ α) :=
  if m.isInitialized then
    .ok {
      machine? := some m
      worker? := none
      controls := ⟨false, false, speed⟩
      started := false
      handle := .ready
      delivered := #[] }
  else .error .notInitialized

def isRunning (s : Session σ α) : Bool :=
  match s.worker? with
  | some (.alive _) => true
  | _ => false

theorem new_eq_ok_iff {m : Machine σ α} {speed : Speed} {s : Session σ α} :
    new m speed = .ok s ↔ m.isInitialized = true ∧
      s = ⟨some m, none, ⟨false, false, speed⟩, false, .ready, #[]⟩ := by
  unfold new
  cases m.isInitialized <;> simp [@eq_comm _ s]

end Session

end TapeMachine
