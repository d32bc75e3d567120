import TapeMachine.Proofs.Session.Ownership
import TapeMachine.Proofs.Session.Reports

/-!
# Starts that fail

A start fails because there was one before, because the handle has no machine, or because the system refuses
the worker. The machine is handed over before the system is asked, and the handle has it back only from a
worker. So the first two failures change nothing, and the third one loses the machine: it leaves a session
without a machine, a worker and a start (`Session.Deserted`), which stays so whatever follows and answers
every call for the machine that a worker has it (`failed_start_after_new`).
-/

namespace TapeMachine.Session

variable {σ α : Type}

/-- A session without a machine that has not been started, so that no worker can give it one. -/
structure Deserted (s : Session σ α) : Prop where
  started : s.started = false
  stranded : s.Stranded

/-! ## What a deserted session answers -/

theorem Deserted.start {s : Session σ α} (h : s.Deserted) (observer : Observer σ α)
    (spawn : Spawn) : s.start observer spawn = (s, .error .busy) := by
  rw [Session.start, h.started, h.stranded.1]
  rfl

theorem Deserted.isRunning {s : Session σ α} (h : s.Deserted) : s.isRunning = false := by
  rw [Session.isRunning, h.stranded.2]

theorem Deserted.intoMachine {s : Session σ α} (h : s.Deserted) :
    (s.request .intoMachine).2 = some (.error .busy) := by
  have hcollect : s.collect = (s, .ok ()) := collect_of_none h.stranded.2
  rw [request_intoMachine h.isRunning, conclude_intoMachine_of_none hcollect h.stranded.1]

/-- The handle gives away a machine that it has. -/
theorem request_intoMachine_of_held {s : Session σ α} {m : Machine σ α} (hm : s.machine? = some m)
    (hw : s.worker? = none) : (s.request .intoMachine).2 = some (.ok (some m)) := by
  have hended : s.isRunning = false := by
    rw [Session.isRunning, hw]
  rw [request_intoMachine hended, conclude_intoMachine_of_some (collect_of_none hw) hm]

variable [DecidableEq σ] [DecidableEq α] [Quoted σ] [Quoted α]

theorem Deserted.step {s : Session σ α} (h : s.Deserted) : s.step = (s, .error .busy) :=
  step_of_collect_none (collect_of_none h.stranded.2) h.stranded.1

/-- A start that would end this needs the machine. -/
theorem Deserted.next? {s s' : Session σ α} {e : Event σ α} (h : s.Deserted)
    (hnext : s.next? e = some s') : s'.Deserted := by
  refine ⟨?_, h.stranded.next? hnext⟩
  cases hs' : s'.started with
  | false => rfl
  | true =>
    obtain ⟨observer, -, hstart⟩ := start_of_next? hnext h.started hs'
    cases (h.start observer .granted).symm.trans hstart

theorem Deserted.follow? {s s' : Session σ α} {es : List (Event σ α)} (h : s.Deserted)
    (hfollow : s.follow? es = some s') : s'.Deserted :=
  follow?_induction (P := fun _ s' => s'.Deserted) h (fun _ _ _ _ _ hs₁ hnext => hs₁.next? hnext)
    hfollow

/-! ## The failures of a start -/

/-- After any history, a start that fails for a start before it or for want of a machine leaves the session as
it is. A start that the system refuses loses the machine, which the handle would have given away just before:
from then on there is none, and every start, every cycle by hand and every request for the machine is told
that a worker has it. -/
theorem failed_start_after_new {m : Machine σ α} {speed : Speed} {s₀ s s' : Session σ α}
    {es : List (Event σ α)} {observer : Observer σ α} {spawn : Spawn} {f : Fault}
    (hnew : Session.new m speed = .ok s₀) (hfollow : s₀.follow? es = some s)
    (hstart : s.start observer spawn = (s', .error f)) :
    (f = .alreadyStarted ∧ s.started = true ∧ s' = s) ∨
    (f = .busy ∧ s.Deserted ∧ s' = s) ∨
    ∃ reason lost,
      spawn = .refused reason ∧ f = .workerFailed s!"Failed to spawn worker: {reason}" ∧
      s.started = false ∧ s.machine? = some lost ∧
      (s.request .intoMachine).2 = some (.ok (some lost)) ∧
      s' = { s with machine? := none } ∧
      ∀ later s'', s'.follow? later = some s'' →
        s''.machine? = none ∧
        (∀ observer spawn, s''.start observer spawn = (s'', .error .busy)) ∧
        s''.step = (s'', .error .busy) ∧
        (s''.request .intoMachine).2 = some (.error .busy) := by
  have hidle : s.Idle := (idle_of_new hnew).follow? hfollow
  rcases Bool.eq_false_or_eq_true s.started with hs | hs
  · rw [start_of_started hs] at hstart
    obtain ⟨rfl, hf⟩ := Prod.mk.inj hstart
    cases hf
    exact .inl ⟨rfl, hs, rfl⟩
  · have hworker : s.worker? = none := hidle hs
    right
    cases hm : s.machine? with
    | none =>
      have hdeserted : s.Deserted := ⟨hs, hm, hworker⟩
      rw [hdeserted.start] at hstart
      obtain ⟨rfl, hf⟩ := Prod.mk.inj hstart
      cases hf
      exact .inl ⟨rfl, hdeserted, rfl⟩
    | some lost =>
      cases spawn with
      | granted =>
        rw [start_eq_ok_iff.mpr ⟨rfl, hs, lost, hm, rfl⟩] at hstart
        cases (Prod.mk.inj hstart).2
      | refused reason =>
        rw [start_of_refused hs hm] at hstart
        obtain ⟨rfl, hf⟩ := Prod.mk.inj hstart
        cases hf
        have hdeserted : Deserted { s with machine? := none } := ⟨hs, rfl, hworker⟩
        refine .inr ⟨reason, lost, rfl, rfl, hs, rfl, request_intoMachine_of_held hm hworker, rfl,
          fun later s'' hlater => ?_⟩
        have hafter := hdeserted.follow? hlater
        exact ⟨hafter.stranded.1, hafter.start, hafter.step, hafter.intoMachine⟩

/-- A paused session is refused a worker. When the system has changed its mind it is too late. -/
theorem failed_start_after_new_paused :
    let rule : Rule Int Int := ⟨⟨0, [1], []⟩, [5], [], [.left], 2⟩
    let m := (Machine.new ⟨0, 1, ⟨0, 9⟩, .consume⟩).after [.addTape [1], .addAction rule, .init]
    let observer : Observer Int Int := fun _ _ => none
    let s₀ : Session Int Int := ⟨some m, none, ⟨false, false, .unlimited⟩, false, .ready, #[]⟩
    let s := s₀.pause
    let s' := (s.start observer (.refused "no threads")).1
    let s'' := (s'.start observer .granted).1.resume
    Session.new m .unlimited = .ok s₀ ∧ s₀.follow? [.call .pause] = some s ∧
      s.machine? = some m ∧
      s.start observer (.refused "no threads") =
        (s', .error (.workerFailed "Failed to spawn worker: no threads")) ∧
      s'.follow? [.call (.start observer .granted), .call .resume] = some s'' ∧
      s''.machine? = none ∧ s''.step = (s'', .error .busy) := by
  intro rule m observer s₀ s s' s''
  have hi : m.isInitialized = true := by decide
  have hnew : Session.new m .unlimited = .ok s₀ := if_pos hi
  have hfollow : s₀.follow? [.call .pause] = some s := rfl
  have hstart : s.start observer (.refused "no threads") =
      (s', .error (.workerFailed "Failed to spawn worker: no threads")) := rfl
  have hlater : s'.follow? [.call (.start observer .granted), .call .resume] = some s'' := rfl
  obtain ⟨hf, -⟩ | ⟨hf, -⟩ | ⟨reason, lost, -, -, -, -, -, -, hlost⟩ :=
    failed_start_after_new hnew hfollow hstart
  · cases hf
  · cases hf
  · obtain ⟨hnone, -, hstep, -⟩ := hlost _ s'' hlater
    exact ⟨hnew, hfollow, rfl, hstart, hlater, hnone, hstep⟩

/-- One refusal is enough: a new session gives its machine to whoever asks, and after the refusal it has no
machine to show, to start or to give away. -/
theorem refused_start_loses_machine :
    let rule : Rule Int Int := ⟨⟨0, [1], []⟩, [5], [], [.left], 2⟩
    let m := (Machine.new ⟨0, 1, ⟨0, 9⟩, .consume⟩).after [.addTape [1], .addAction rule, .init]
    let observer : Observer Int Int := fun _ _ => none
    let s : Session Int Int := ⟨some m, none, ⟨false, false, .unlimited⟩, false, .ready, #[]⟩
    let s' := (s.start observer (.refused "no threads")).1
    Session.new m .unlimited = .ok s ∧
      (s.start observer (.refused "no threads")).2 =
        .error (.workerFailed "Failed to spawn worker: no threads") ∧
      s.machine? = some m ∧ s'.machine? = none ∧
      (s.start observer .granted).2 = .ok () ∧ (s'.start observer .granted).2 = .error .busy ∧
      (s.request .intoMachine).2 = some (.ok (some m)) ∧
      (s'.request .intoMachine).2 = some (.error .busy) :=
  ⟨rfl, rfl, rfl, rfl, rfl, rfl, rfl, rfl⟩

end TapeMachine.Session
