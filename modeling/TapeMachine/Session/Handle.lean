import TapeMachine.Session.Worker

/-!
# Calls on the handle

What the owner of a session can do. Calls that need the machine fail while a worker has it. Calls
that wait for the worker are made in two parts: `request` answers at once or leaves the handle
waiting, and `conclude` answers when the worker has ended. A join is refused where it would wait for
a worker that a closed gate stops.
-/

namespace TapeMachine

/-- What the operating system says to a new worker. -/
inductive Spawn where
  | granted
  | refused (reason : String)
  deriving DecidableEq, Repr

namespace Session

variable {σ α : Type}

/-! ## Controls -/

def pause (s : Session σ α) : Session σ α :=
  { s with controls.paused := true }

def resume (s : Session σ α) : Session σ α :=
  { s with controls.paused := false }

/-- Ends the run before the next cycle, for good. -/
def cancel (s : Session σ α) : Session σ α :=
  { s with controls.cancelled := true }

/-- Changes the delay from the next cycle on. -/
def setSpeed (s : Session σ α) (speed : Speed) : Session σ α :=
  { s with controls.speed := speed }

def isPaused (s : Session σ α) : Bool :=
  s.controls.paused

/-! ## Starting and collecting the worker -/

/-- Starts the worker, which takes the machine along. A machine that was handed over to a worker
the system then refuses is lost. -/
def start (s : Session σ α) (observer : Observer σ α) (spawn : Spawn) :
    Session σ α × Except Fault Unit :=
  if s.started then (s, .error .alreadyStarted)
  else
    match s.machine? with
    | none => (s, .error .busy)
    | some m =>
      -- the machine is taken before it is known whether there will be a worker
      let s := { s with machine? := none }
      match spawn with
      | .granted =>
        ({ s with worker? := some (.alive ⟨m, observer, .gate⟩), started := true }, .ok ())
      | .refused reason => (s, .error (.workerFailed s!"Failed to spawn worker: {reason}"))

/-- Collects a worker that has ended and takes the machine back from it. -/
def collect (s : Session σ α) : Session σ α × Except Fault Unit :=
  match s.worker? with
  | some (.finished m) => ({ s with worker? := none, machine? := some m }, .ok ())
  | some (.panicked p) => ({ s with worker? := none }, .error (.workerFailed p.reason))
  | _ => (s, .ok ())

theorem start_of_started {s : Session σ α} (h : s.started = true) (observer : Observer σ α)
    (spawn : Spawn) : s.start observer spawn = (s, .error .alreadyStarted) := by
  rw [start, if_pos h]

theorem start_of_machine?_none {s : Session σ α} (h : s.machine? = none) (observer : Observer σ α)
    (spawn : Spawn) : (s.start observer spawn).1 = s := by
  unfold start
  split
  · rfl
  · rw [h]

/-- A machine that is handed over to a worker the system refuses is not given back. -/
theorem start_of_refused {s : Session σ α} {m : Machine σ α} (h : s.started = false)
    (hm : s.machine? = some m) (observer : Observer σ α) (reason : String) :
    s.start observer (.refused reason) =
      ({ s with machine? := none },
        .error (.workerFailed s!"Failed to spawn worker: {reason}")) := by
  simp [start, h, hm]

theorem start_eq_ok_iff {s s' : Session σ α} {observer : Observer σ α} {spawn : Spawn} :
    s.start observer spawn = (s', .ok ()) ↔
      spawn = .granted ∧ s.started = false ∧ ∃ m, s.machine? = some m ∧
        s' = { s with
          machine? := none
          worker? := some (.alive ⟨m, observer, .gate⟩)
          started := true } := by
  unfold start
  cases s.started with
  | true => simp
  | false =>
    cases s.machine? with
    | none => simp
    | some m => cases spawn <;> simp [@eq_comm _ s']

@[simp]
theorem controls_start (s : Session σ α) (observer : Observer σ α) (spawn : Spawn) :
    (s.start observer spawn).1.controls = s.controls := by
  unfold start
  split
  · rfl
  · split
    · rfl
    · cases spawn <;> rfl

@[simp]
theorem handle_start (s : Session σ α) (observer : Observer σ α) (spawn : Spawn) :
    (s.start observer spawn).1.handle = s.handle := by
  unfold start
  split
  · rfl
  · split
    · rfl
    · cases spawn <;> rfl

theorem collect_of_none {s : Session σ α} (h : s.worker? = none) : s.collect = (s, .ok ()) := by
  rw [collect, h]

theorem collect_of_alive {s : Session σ α} {w : Worker σ α} (h : s.worker? = some (.alive w)) :
    s.collect = (s, .ok ()) := by
  rw [collect, h]

theorem collect_of_finished {s : Session σ α} {m : Machine σ α}
    (h : s.worker? = some (.finished m)) :
    s.collect = ({ s with worker? := none, machine? := some m }, .ok ()) := by
  rw [collect, h]

theorem collect_of_panicked {s : Session σ α} {p : Panic} (h : s.worker? = some (.panicked p)) :
    s.collect = ({ s with worker? := none }, .error (.workerFailed p.reason)) := by
  rw [collect, h]

@[simp]
theorem controls_collect (s : Session σ α) : s.collect.1.controls = s.controls := by
  unfold collect
  split <;> rfl

@[simp]
theorem handle_collect (s : Session σ α) : s.collect.1.handle = s.handle := by
  unfold collect
  split <;> rfl

@[simp]
theorem started_collect (s : Session σ α) : s.collect.1.started = s.started := by
  unfold collect
  split <;> rfl

theorem collect_cancel (s : Session σ α) :
    s.cancel.collect = (s.collect.1.cancel, s.collect.2) := by
  have hworker : s.cancel.worker? = s.worker? := rfl
  unfold collect
  rw [hworker]
  split <;> rfl

/-- The answer to a request when no worker is alive: the machine, if it was asked for. -/
def conclude (s : Session σ α) (request : Request) :
    Session σ α × Except Fault (Option (Machine σ α)) :=
  let (s, collected) := s.collect
  match request with
  | .join => ({ s with handle := .ready }, collected.map fun _ => none)
  | .drop => ({ s with machine? := none, handle := .gone }, .ok none)
  | .intoMachine =>
    let answer :=
      match collected, s.machine? with
      | .error f, _ => .error f
      | .ok _, some m => .ok (some m)
      | .ok _, none => .error .busy
    ({ s with machine? := none, handle := .gone }, answer)

theorem conclude_join (s : Session σ α) :
    s.conclude .join =
      ({ s.collect.1 with handle := .ready }, s.collect.2.map fun _ => none) := rfl

theorem conclude_drop (s : Session σ α) :
    s.conclude .drop = ({ s.collect.1 with machine? := none, handle := .gone }, .ok none) := rfl

/-- A request for the machine is answered with the fault of the collection, if there is one. -/
theorem conclude_intoMachine_of_error {s s' : Session σ α} {f : Fault}
    (h : s.collect = (s', .error f)) :
    s.conclude .intoMachine = ({ s' with machine? := none, handle := .gone }, .error f) := by
  simp only [conclude, h]

theorem conclude_intoMachine_of_none {s s' : Session σ α} (h : s.collect = (s', .ok ()))
    (hm : s'.machine? = none) :
    s.conclude .intoMachine = ({ s' with machine? := none, handle := .gone }, .error .busy) := by
  simp only [conclude, h, hm]

theorem conclude_intoMachine_of_some {s s' : Session σ α} {m : Machine σ α}
    (h : s.collect = (s', .ok ())) (hm : s'.machine? = some m) :
    s.conclude .intoMachine = ({ s' with machine? := none, handle := .gone }, .ok (some m)) := by
  simp only [conclude, h, hm]

@[simp]
theorem worker?_conclude (s : Session σ α) (request : Request) :
    (s.conclude request).1.worker? = s.collect.1.worker? := by
  cases request <;> rfl

@[simp]
theorem controls_conclude (s : Session σ α) (request : Request) :
    (s.conclude request).1.controls = s.controls := by
  cases request <;> exact controls_collect s

@[simp]
theorem started_conclude (s : Session σ α) (request : Request) :
    (s.conclude request).1.started = s.started := by
  cases request <;> exact started_collect s

theorem handle_conclude_ne_waiting (s : Session σ α) (request request' : Request) :
    (s.conclude request).1.handle ≠ .waiting request' := by
  cases request <;> simp [conclude]

/-- The controls that a request leaves: all but a join cancel, a drop only if there is a worker. -/
def prepare (s : Session σ α) : Request → Session σ α
  | .join => s
  | .intoMachine => s.cancel
  | .drop => if s.worker?.isSome then s.cancel else s

/-- Makes a request: the answer, or none while the handle has to wait for the worker. -/
def request (s : Session σ α) (request : Request) :
    Session σ α × Option (Except Fault (Option (Machine σ α))) :=
  if request = .join ∧ s.isRunning ∧ s.controls.isHeld then (s, some (.error .busy))
  else
    let s := s.prepare request
    if s.isRunning then ({ s with handle := .waiting request }, none)
    else
      let (s, answer) := s.conclude request
      (s, some answer)

theorem prepare_cases (s : Session σ α) (request : Request) :
    s.prepare request = s ∨ s.prepare request = s.cancel := by
  cases request with
  | join => exact .inl rfl
  | intoMachine => exact .inr rfl
  | drop =>
    cases hworker : s.worker?.isSome with
    | true => exact .inr (if_pos hworker)
    | false => exact .inl (if_neg (by simp [hworker]))

@[simp]
theorem worker?_prepare (s : Session σ α) (request : Request) :
    (s.prepare request).worker? = s.worker? := by
  rcases s.prepare_cases request with h | h
  · rw [h]
  · rw [h]
    rfl

@[simp]
theorem isRunning_prepare (s : Session σ α) (request : Request) :
    (s.prepare request).isRunning = s.isRunning := by
  rcases s.prepare_cases request with h | h
  · rw [h]
  · rw [h]
    rfl

/-- A request is refused, waits for the worker past an open gate, or is answered. -/
theorem request_cases (s : Session σ α) (request : Request) :
    (request = .join ∧ s.isRunning = true ∧ s.controls.isHeld = true ∧
        s.request request = (s, some (.error .busy))) ∨
      (s.isRunning = true ∧ (s.prepare request).controls.isHeld = false ∧
        s.request request = ({ s.prepare request with handle := .waiting request }, none)) ∨
      (s.isRunning = false ∧
        s.request request =
          (((s.prepare request).conclude request).1,
            some ((s.prepare request).conclude request).2)) := by
  by_cases hrefused : request = .join ∧ s.isRunning ∧ s.controls.isHeld
  · obtain ⟨hjoin, hrunning, hheld⟩ := hrefused
    exact .inl ⟨hjoin, hrunning, hheld, if_pos ⟨hjoin, hrunning, hheld⟩⟩
  · right
    unfold Session.request
    rw [if_neg hrefused]
    cases hrunning : s.isRunning with
    | false => exact .inr ⟨rfl, by simp [hrunning]⟩
    | true =>
      refine .inl ⟨rfl, ?_, by simp [hrunning]⟩
      cases request with
      | join =>
        rw [Bool.eq_false_iff]
        exact fun hheld => hrefused ⟨rfl, hrunning, hheld⟩
      | intoMachine => simp [prepare, cancel, Controls.isHeld]
      | drop =>
        -- there is a worker to be told
        have hworker : s.worker?.isSome = true := by
          cases hw : s.worker? with
          | some t => rfl
          | none =>
            rw [isRunning, hw] at hrunning
            cases hrunning
        simp [prepare, hworker, cancel, Controls.isHeld]

theorem request_of_not_running {s : Session σ α} (h : s.isRunning = false) (request : Request) :
    s.request request =
      (((s.prepare request).conclude request).1, some ((s.prepare request).conclude request).2) := by
  rcases s.request_cases request with ⟨-, hrunning, -⟩ | ⟨hrunning, -⟩ | ⟨-, hs⟩
  · cases h.symm.trans hrunning
  · cases h.symm.trans hrunning
  · exact hs

@[simp]
theorem started_prepare (s : Session σ α) (request : Request) :
    (s.prepare request).started = s.started := by
  rcases s.prepare_cases request with h | h
  · rw [h]
  · rw [h]
    rfl

@[simp]
theorem started_request (s : Session σ α) (request : Request) :
    (s.request request).1.started = s.started := by
  rcases s.request_cases request with ⟨-, -, -, h⟩ | ⟨-, -, h⟩ | ⟨-, h⟩
  · rw [h]
  · rw [h]
    exact started_prepare s request
  · rw [h, started_conclude, started_prepare]

@[simp]
theorem paused_prepare (s : Session σ α) (request : Request) :
    (s.prepare request).controls.paused = s.controls.paused := by
  rcases s.prepare_cases request with h | h
  · rw [h]
  · rw [h]
    rfl

theorem controls_request_of_ne_join (s : Session σ α) {request : Request} (h : request ≠ .join) :
    (s.request request).1.controls = (s.prepare request).controls := by
  rcases s.request_cases request with ⟨hjoin, -⟩ | ⟨-, -, h⟩ | ⟨-, h⟩
  · exact absurd hjoin h
  · rw [h]
  · rw [h, controls_conclude]

@[simp]
theorem controls_request_join (s : Session σ α) : (s.request .join).1.controls = s.controls := by
  rcases s.request_cases .join with ⟨-, -, -, h⟩ | ⟨-, -, h⟩ | ⟨-, h⟩
  · rw [h]
  · rw [h]
    rfl
  · rw [h]
    exact controls_conclude s .join

@[simp]
theorem paused_request (s : Session σ α) (request : Request) :
    (s.request request).1.controls.paused = s.controls.paused := by
  rcases s.request_cases request with ⟨-, -, -, h⟩ | ⟨-, -, h⟩ | ⟨-, h⟩
  · rw [h]
  · rw [h]
    exact paused_prepare s request
  · rw [h, controls_conclude, paused_prepare]

/-! ## Cycles by hand -/

variable [DecidableEq σ] [DecidableEq α] [Quoted σ] [Quoted α]

/-- Runs one cycle on the handle's side, after collecting a worker that has ended. -/
def step (s : Session σ α) : Session σ α × Except Fault (Snapshot σ α) :=
  match s.collect with
  | (s, .error f) => (s, .error f)
  | (s, .ok _) =>
    match s.machine? with
    | none => (s, .error .busy)
    | some m =>
      let (m, result) := m.step
      let s := { s with machine? := some m }
      match result with
      | .error f => (s, .error f)
      | .ok progress => (s, .ok (cycleSnapshot m (.ok progress)))

theorem step_of_collect_error {s s' : Session σ α} {f : Fault} (h : s.collect = (s', .error f)) :
    s.step = (s', .error f) := by
  rw [step, h]

theorem step_of_collect_none {s s' : Session σ α} (h : s.collect = (s', .ok ()))
    (hm : s'.machine? = none) : s.step = (s', .error .busy) := by
  simp only [step, h, hm]

theorem step_of_collect_some {s s' : Session σ α} {m : Machine σ α}
    (h : s.collect = (s', .ok ())) (hm : s'.machine? = some m) :
    s.step =
      ({ s' with machine? := some m.step.1 },
        m.step.2.map fun progress => cycleSnapshot m.step.1 (.ok progress)) := by
  simp only [step, h, hm]
  cases m.step.2 <;> rfl

/-- The answer to a cycle by hand that does not fail is its snapshot. -/
theorem step_eq_ok {s : Session σ α} {snapshot : Snapshot σ α} (h : s.step.2 = .ok snapshot) :
    ∃ m, s.collect.1.machine? = some m ∧ snapshot = cycleSnapshot m.step.1 m.step.2 := by
  cases hcollect : s.collect with
  | mk s' collected =>
    cases collected with
    | error f =>
      rw [step_of_collect_error hcollect] at h
      cases h
    | ok u =>
      cases hm : s'.machine? with
      | none =>
        rw [step_of_collect_none hcollect hm] at h
        cases h
      | some m =>
        rw [step_of_collect_some hcollect hm] at h
        refine ⟨m, rfl, ?_⟩
        cases hstep : m.step.2 with
        | error f =>
          rw [hstep] at h
          cases h
        | ok progress =>
          rw [hstep] at h
          cases h
          rfl

/-- A cycle by hand is a collection and a change of the machine. -/
theorem step_fst (s : Session σ α) : ∃ m?, s.step.1 = { s.collect.1 with machine? := m? } := by
  cases hcollect : s.collect with
  | mk s' collected =>
    cases collected with
    | error f => exact ⟨s'.machine?, by rw [step_of_collect_error hcollect]⟩
    | ok u =>
      cases hm : s'.machine? with
      | none => exact ⟨s'.machine?, by rw [step_of_collect_none hcollect hm]⟩
      | some m => exact ⟨_, by rw [step_of_collect_some hcollect hm]⟩

@[simp]
theorem handle_step (s : Session σ α) : s.step.1.handle = s.handle := by
  obtain ⟨m?, hstep⟩ := s.step_fst
  rw [hstep]
  exact handle_collect s

@[simp]
theorem started_step (s : Session σ α) : s.step.1.started = s.started := by
  obtain ⟨m?, hstep⟩ := s.step_fst
  rw [hstep]
  exact started_collect s

@[simp]
theorem controls_step (s : Session σ α) : s.step.1.controls = s.controls := by
  obtain ⟨m?, hstep⟩ := s.step_fst
  rw [hstep]
  exact controls_collect s

end Session

end TapeMachine
