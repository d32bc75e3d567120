import TapeMachine.Json.Error

/-!
# Faults

Everything that can go wrong, by cause: with a machine while it is built or run, with a session that
runs one in the background, and with the description a machine is built from. Each fault belongs to
one of two kinds and has one wording.
-/

namespace TapeMachine

/-- The size in bytes up to which a program text is accepted. -/
def programSizeLimit : Nat := 65536

/-- The parts of an action that have one value per tape or per stack. -/
inductive ActionPart where
  | read
  | pop
  | write
  | direction
  | push
  deriving DecidableEq, Repr

/-- What is wrong with a program as a whole. -/
inductive Defect where
  | sameMarks (mark : Char)
  /-- A direction token would be taken for a separator. -/
  | separatorToken (token : Char)
  | sameTokens (left right stay : Char)
  | foreignSymbol (symbol : Char)
  | tooManyInputs (inputs tapes : Nat)
  | tooLarge (bytes : Nat)
  deriving DecidableEq, Repr

/-- Why a call fails. -/
inductive Fault where
  | invalidDirection (token : Char)
  /-- An action for a state has the wrong number of values in one part. -/
  | arityMismatch (state : String) (part : ActionPart) (expected found : Nat)
  | noTapes
  | noActions
  | alreadyInitialized
  | notInitialized
  /-- The table has no action for a state, the symbols read and the symbols popped. -/
  | undefinedTransition (state read pop : String)
  | busy
  /-- A session starts only one worker. -/
  | alreadyStarted
  /-- The worker could not be started, or its observer panicked. -/
  | workerFailed (reason : String)
  /-- A program is well formed and describes no machine. -/
  | invalidProgram (defect : Defect)
  /-- A text describes no program. -/
  | malformedProgram (error : Json.Error)
  | unreadableFile (path reason : String)
  | unreadableDirectory (path reason : String)
  deriving DecidableEq, Repr

/-- The kinds of faults. -/
inductive FaultKind where
  | setup
  | runtime
  deriving DecidableEq, Repr

namespace ActionPart

def name : ActionPart → String
  | read => "read"
  | pop => "pop"
  | write => "write"
  | direction => "direction"
  | push => "push"

end ActionPart

namespace Defect

def describe : Defect → String
  | sameMarks mark => s!"Blank and no-write symbols must differ (both are '{mark}')"
  | separatorToken token => s!"Direction token {quoted token} is a separator"
  | sameTokens left right stay =>
    s!"Direction tokens must differ, got '{left}', '{right}' and '{stay}'"
  | foreignSymbol symbol => s!"Invalid symbol '{symbol}'"
  | tooManyInputs inputs tapes =>
    s!"Too many tape contents provided: {inputs} contents for {tapes} tapes"
  | tooLarge bytes => s!"Program is {bytes} bytes, the limit is {programSizeLimit}"

end Defect

namespace Fault

def message : Fault → String
  | invalidDirection token => s!"Invalid direction '{token}'"
  | arityMismatch state part expected found =>
    s!"Action for state {state} has {found} {part.name} values, expected {expected}"
  | noTapes => "No tapes defined"
  | noActions => "No actions defined"
  | alreadyInitialized => "Machine is already initialized"
  | notInitialized => "Machine is not initialized"
  | undefinedTransition state read pop =>
    s!"No action defined for state {state} and values ({read}), ({pop})"
  | busy => "Machine is running in the background"
  | alreadyStarted => "Driver has already been started"
  | workerFailed reason => s!"Driver worker failed: {reason}"
  | invalidProgram defect => s!"Program validation error: {defect.describe}"
  | malformedProgram error => s!"Program parsing error: {error.message}"
  | unreadableFile path reason => s!"File error: Failed to read file {path}: {reason}"
  | unreadableDirectory path reason => s!"File error: Failed to read directory {path}: {reason}"

def kind : Fault → FaultKind
  | notInitialized | undefinedTransition .. | busy | alreadyStarted | workerFailed _ => .runtime
  | _ => .setup

end Fault

/-- What a call leaves behind, where everything ends with a call that is refused. -/
def demand {β γ : Type} (call : β × Except Fault γ) : Except Fault β :=
  call.2.map fun _ => call.1

@[simp]
theorem demand_ok {β γ : Type} (left : β) (answer : γ) : demand (left, .ok answer) = .ok left := rfl

@[simp]
theorem demand_error {β γ : Type} (left : β) (f : Fault) :
    demand ((left, .error f) : β × Except Fault γ) = .error f := rfl

end TapeMachine
