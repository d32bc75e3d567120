import TapeMachine.Session.Basic

/-!
# The worker's steps

A worker waits at the gate, runs a cycle, shows its snapshot, sleeps and begins again. It ends after
it has shown a terminal snapshot: when the machine has halted, when a cycle has failed, or at the
gate once the session is cancelled. A panic of the observer ends it too, and the machine is lost.
-/

namespace TapeMachine

variable {σ α : Type}

/-- Where a run stands after a cycle that has not failed. -/
def Progress.status : Progress → Status
  | running _ => .running
  | halted => .halted

/-- The snapshot that reports a cycle. -/
def cycleSnapshot (m : Machine σ α) : Except Fault Progress → Snapshot σ α
  | .ok progress => m.snapshot progress.action? progress.status
  | .error f => m.snapshot none (.failed f)

namespace Session

/-- The session with the worker in another phase. -/
def withPhase (s : Session σ α) (w : Worker σ α) (phase : Phase σ α) : Session σ α :=
  { s with worker? := some (.alive { w with phase := phase }) }

variable [DecidableEq σ] [DecidableEq α] [Quoted σ] [Quoted α]

/-- The next step of a worker, or nothing if it has to wait at the gate. -/
def advanceWorker (s : Session σ α) (w : Worker σ α) : Option (Session σ α) :=
  match w.phase with
  | .gate =>
    -- a cancellation counts for more than a pause
    if s.controls.cancelled then
      some (s.withPhase w (.notify (w.machine.snapshot none .cancelled)))
    else if s.controls.paused then none
    else some (s.withPhase w .cycle)
  | .cycle =>
    let (m, result) := w.machine.step
    some (s.withPhase { w with machine := m } (.notify (cycleSnapshot m result)))
  | .notify snapshot =>
    let delivered := s.delivered.push snapshot
    let ending := w.observer delivered.size snapshot
    some ({ s with delivered := delivered }.withPhase w (.observing snapshot.isTerminal ending))
  | .observing last ending =>
    match ending with
    | some panic => some { s with worker? := some (.panicked panic) }
    | none =>
      if last then some { s with worker? := some (.finished w.machine) }
      else some (s.withPhase w .throttle)
  | .throttle => some (s.withPhase w .gate)

/-- The next step of the worker, if there is a worker that can take one. -/
def advance (s : Session σ α) : Option (Session σ α) :=
  match s.worker? with
  | some (.alive w) => s.advanceWorker w
  | _ => none

/-- The nanoseconds for which the worker sleeps where it is. -/
def delay? (s : Session σ α) : Option Nat :=
  match s.worker? with
  | some (.alive ⟨_, _, .throttle⟩) => s.controls.speed.delay?
  | _ => none

/-- Lets the worker go on until it waits or has ended; nothing if that takes `fuel` steps. -/
def settle : (fuel : Nat) → Session σ α → Option (Session σ α)
  | 0, _ => none
  | fuel + 1, s =>
    match s.advance with
    | some s' => settle fuel s'
    | none => some s

end Session

end TapeMachine
