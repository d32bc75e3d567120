import TapeMachine.Proofs.Machine.Failure
import TapeMachine.Proofs.Session.Invariants

/-!
# Reports of a failure

The failure of a worker is reported by a start that the system refuses and by the call that collects a worker
which has panicked, and by nothing else: the faults of a machine itself are others
(`Session.start_of_reportsFailure`, `Session.reportsFailure_of_panicked`). In either case the machine is lost,
and from then on the session answers as one without (`Session.Bereft`).
-/

namespace TapeMachine

variable {σ α : Type} [DecidableEq σ] [DecidableEq α] [Quoted σ] [Quoted α]

/-- The fault of an answer, if it is one. -/
def faultOf {β : Type} : Except Fault β → Option Fault
  | .ok _ => none
  | .error f => some f

namespace Session

/-! ## Answers once the machine is lost -/

/-- The answers of a session whose worker has ended and left no machine: a join is answered as told, and the
calls that need the machine fail. -/
structure Bereft (s : Session σ α) (joined : Except Fault (Option (Machine σ α))) (f : Fault) :
    Prop where
  machine : s.machine? = none
  ended : s.isRunning = false
  start : ∀ observer spawn, s.start observer spawn = (s, .error .alreadyStarted)
  step : s.step = ({ s with worker? := none }, .error f)
  join : s.request .join = ({ s with worker? := none, handle := .ready }, some joined)
  joined : s.conclude .join = ({ s with worker? := none, handle := .ready }, joined)
  intoMachine : (s.request .intoMachine).2 = some (.error f)
  givenAway : (s.conclude .intoMachine).2 = .error f
  drop : (s.request .drop).2 = some (.ok none)
  dropped : (s.conclude .drop).2 = .ok none

omit [DecidableEq σ] [DecidableEq α] [Quoted σ] [Quoted α] in
/-- A request for a lost machine fails as its collection does. -/
theorem conclude_intoMachine_of_lost {s s' : Session σ α} {collected : Except Fault Unit} {f : Fault}
    (hcollect : s.collect = (s', collected)) (hmachine : s'.machine? = none)
    (hf : collected = .error f ∨ collected = .ok () ∧ f = .busy) :
    (s.conclude .intoMachine).2 = .error f := by
  rcases hf with rfl | ⟨rfl, rfl⟩
  · rw [conclude_intoMachine_of_error hcollect]
  · rw [conclude_intoMachine_of_none hcollect hmachine]

theorem bereft_of_collect {s : Session σ α} {collected : Except Fault Unit} {f : Fault}
    (hstarted : s.started = true) (hmachine : s.machine? = none) (hended : s.isRunning = false)
    (hcollect : s.collect = ({ s with worker? := none }, collected))
    (hf : collected = .error f ∨ collected = .ok () ∧ f = .busy) :
    s.Bereft (collected.map fun _ => none) f where
  machine := hmachine
  ended := hended
  start := start_of_started hstarted
  step := by
    rcases hf with rfl | ⟨rfl, rfl⟩
    · exact step_of_collect_error hcollect
    · exact step_of_collect_none hcollect hmachine
  join := by
    rw [request_of_not_running hended]
    show ((s.conclude .join).1, some (s.conclude .join).2) = _
    rw [conclude_join, hcollect]
  joined := by
    rw [conclude_join, hcollect]
  intoMachine := by
    have hcancel : s.cancel.collect = ({ s with worker? := none }.cancel, collected) := by
      rw [collect_cancel, hcollect]
    rw [request_of_not_running hended]
    exact congrArg some (conclude_intoMachine_of_lost hcancel hmachine hf)
  givenAway := conclude_intoMachine_of_lost hcollect hmachine hf
  drop := by
    rw [request_of_not_running hended, conclude_drop]
  dropped := by
    rw [conclude_drop]

/-- The worker has panicked, and nobody has been told. -/
theorem bereft_of_panicked {s : Session σ α} {p : Panic} (hstarted : s.started = true)
    (hmachine : s.machine? = none) (hw : s.worker? = some (.panicked p)) :
    s.Bereft (.error (.workerFailed p.reason)) (.workerFailed p.reason) :=
  bereft_of_collect hstarted hmachine (by rw [isRunning, hw]) (collect_of_panicked hw) (.inl rfl)

/-- The fault that an event comes back with. A call that waits has not come back. -/
def fault? (s : Session σ α) : Event σ α → Option Fault
  | .call (.start observer spawn) => faultOf (s.start observer spawn).2
  | .call .step => faultOf s.step.2
  | .call (.request request) => (s.request request).2.bind faultOf
  | .conclude =>
    match s.handle with
    | .waiting request => faultOf (s.conclude request).2
    | _ => none
  | _ => none

/-- Tells that an event comes back with the failure of a worker. -/
def reportsFailure (s : Session σ α) (e : Event σ α) : Bool :=
  s.fault? e matches some (.workerFailed _)

theorem reportsFailure_eq_true_iff {s : Session σ α} {e : Event σ α} :
    s.reportsFailure e = true ↔ ∃ reason, s.fault? e = some (.workerFailed reason) := by
  unfold reportsFailure
  split
  · rename_i reason h
    exact ⟨fun _ => ⟨reason, h⟩, fun _ => rfl⟩
  · rename_i h
    exact ⟨fun h' => (by cases h'), fun ⟨reason, hreason⟩ => (h reason hreason).elim⟩

section Unhurt

variable {s : Session σ α}

omit [DecidableEq σ] [DecidableEq α] [Quoted σ] [Quoted α] in
theorem collect_snd_of_unhurt (h : ∀ p, s.worker? ≠ some (.panicked p)) :
    s.collect = (s.collect.1, .ok ()) := by
  cases hw : s.worker? with
  | none => rw [collect_of_none hw]
  | some t =>
    cases t with
    | alive w => rw [collect_of_alive hw]
    | finished m => rw [collect_of_finished hw]
    | panicked p => exact absurd hw (h p)

omit [DecidableEq σ] [DecidableEq α] [Quoted σ] [Quoted α] in
theorem faultOf_conclude_of_unhurt (h : ∀ p, s.worker? ≠ some (.panicked p)) {request : Request}
    {f : Fault} (hf : faultOf (s.conclude request).2 = some f) : f = .busy := by
  have hcollect := collect_snd_of_unhurt h
  cases request with
  | join =>
    rw [conclude_join, hcollect] at hf
    cases hf
  | drop =>
    rw [conclude_drop] at hf
    cases hf
  | intoMachine =>
    cases hm : s.collect.1.machine? with
    | none =>
      rw [conclude_intoMachine_of_none hcollect hm] at hf
      cases hf
      rfl
    | some m =>
      rw [conclude_intoMachine_of_some hcollect hm] at hf
      cases hf

omit [DecidableEq σ] [DecidableEq α] [Quoted σ] [Quoted α] in
theorem faultOf_request_of_unhurt (h : ∀ p, s.worker? ≠ some (.panicked p)) {request : Request}
    {f : Fault} (hf : (s.request request).2.bind faultOf = some f) : f = .busy := by
  rcases s.request_cases request with ⟨-, -, -, hs⟩ | ⟨-, -, hs⟩ | ⟨-, hs⟩
  · rw [hs] at hf
    cases hf
    rfl
  · rw [hs] at hf
    cases hf
  · rw [hs] at hf
    exact faultOf_conclude_of_unhurt (by rwa [worker?_prepare]) hf

theorem faultOf_step_of_unhurt (hmachines : s.Every Machine.OnlyUnmatched)
    (h : ∀ p, s.worker? ≠ some (.panicked p)) {f : Fault} (hf : faultOf s.step.2 = some f) :
    f = .busy ∨ f = .notInitialized ∨ ∃ key : Key σ α, f = Machine.undefinedTransition key := by
  have hcollect := collect_snd_of_unhurt h
  cases hm : s.collect.1.machine? with
  | none =>
    rw [step_of_collect_none hcollect hm] at hf
    cases hf
    exact .inl rfl
  | some m =>
    have hunmatched : m.OnlyUnmatched :=
      (hmachines.collect fun _ => Machine.OnlyUnmatched.step).held m hm
    rw [step_of_collect_some hcollect hm] at hf
    cases hstep : m.step.2 with
    | ok progress =>
      rw [hstep] at hf
      cases hf
    | error f' =>
      rw [hstep] at hf
      cases hf
      exact .inr (hunmatched.step_error hstep)

/-- If no worker has panicked, the only failure is that of a start. -/
theorem start_of_reportsFailure (hmachines : s.Every Machine.OnlyUnmatched)
    (h : ∀ p, s.worker? ≠ some (.panicked p)) {e : Event σ α} (he : s.reportsFailure e = true) :
    s.started = false ∧ ∃ observer reason, e = .call (.start observer (.refused reason)) := by
  obtain ⟨reason, hreason⟩ := reportsFailure_eq_true_iff.mp he
  cases e with
  | advance => cases hreason
  | conclude =>
    simp only [fault?] at hreason
    split at hreason
    · cases faultOf_conclude_of_unhurt h hreason
    · cases hreason
  | call call =>
    cases call with
    | pause => cases hreason
    | resume => cases hreason
    | cancel => cases hreason
    | setSpeed speed => cases hreason
    | isPaused => cases hreason
    | isRunning => cases hreason
    | machine => cases hreason
    | step =>
      rcases faultOf_step_of_unhurt hmachines h hreason with hf | hf | ⟨key, hf⟩
      · cases hf
      · cases hf
      · cases hf
    | request request => cases faultOf_request_of_unhurt h hreason
    | start observer spawn =>
      cases hs : s.started with
      | true =>
        rw [fault?, start_of_started hs] at hreason
        cases hreason
      | false =>
        cases spawn with
        | refused text => exact ⟨rfl, observer, text, rfl⟩
        | granted =>
          rw [fault?, start, hs] at hreason
          cases hm : s.machine? with
          | none => simp [hm, faultOf] at hreason
          | some m => simp [hm, faultOf] at hreason

end Unhurt

/-! ## Reports before the start -/

/-- There is no machine left and nobody who could bring one back. -/
def Stranded (s : Session σ α) : Prop :=
  s.machine? = none ∧ s.worker? = none

theorem Stranded.next? {s s' : Session σ α} {e : Event σ α} (h : s.Stranded)
    (hnext : s.next? e = some s') : s'.Stranded := by
  refine invariant_next? ?_ ?_ h hnext
  · rintro s₁ s₂ ⟨hmachine, hworker⟩ hchange
    cases hchange with
    | adjust controls handle => exact ⟨hmachine, hworker⟩
    | lend observer hs hm => cases hmachine.symm.trans hm
    | reclaim hw => cases hworker.symm.trans hw
    | bury hw => cases hworker.symm.trans hw
    | giveAway => exact ⟨rfl, hworker⟩
    | cycle hm => cases hmachine.symm.trans hm
  · rintro s₁ s₂ ⟨-, hworker⟩ hadvance
    obtain ⟨w, hw, -⟩ := advance_cases hadvance
    cases hworker.symm.trans hw

/-- The event that collects a worker reports that it has panicked, unless it gives the session up. -/
theorem reportsFailure_of_panicked {s s' : Session σ α} {e : Event σ α} {p : Panic}
    (hstarted : s.started = true) (hmachine : s.machine? = none)
    (hw : s.worker? = some (.panicked p)) (hnext : s.next? e = some s') :
    (s.fault? e = some (.workerFailed p.reason) ∧ s'.worker? = none) ∨
      (s.reportsFailure e = false ∧ s'.worker? = some (.panicked p)) ∨
      (s.reportsFailure e = false ∧ s'.worker? = none ∧
        (e = .call (.request .drop) ∨ s.handle = .waiting .drop)) := by
  have hbereft := bereft_of_panicked hstarted hmachine hw
  have hcollected : s.collect.1.worker? = none := by
    rw [collect_of_panicked hw]
  cases e with
  | advance =>
    obtain ⟨w, hw', -⟩ := advance_cases hnext
    cases hw.symm.trans hw'
  | conclude =>
    obtain ⟨request, hwaiting, -, rfl⟩ := next?_conclude_eq_some_iff.mp hnext
    have hworker : (s.conclude request).1.worker? = none := by
      rw [worker?_conclude, hcollected]
    simp only [reportsFailure, fault?, hwaiting]
    cases request with
    | join =>
      rw [hbereft.joined] at hworker ⊢
      exact .inl ⟨rfl, rfl⟩
    | intoMachine =>
      rw [hbereft.givenAway]
      exact .inl ⟨rfl, hworker⟩
    | drop =>
      rw [hbereft.dropped]
      exact .inr (.inr ⟨rfl, hworker, .inr rfl⟩)
  | call call =>
    obtain ⟨-, rfl⟩ := next?_call_eq_some_iff.mp hnext
    cases call with
    | pause => exact .inr (.inl ⟨rfl, hw⟩)
    | resume => exact .inr (.inl ⟨rfl, hw⟩)
    | cancel => exact .inr (.inl ⟨rfl, hw⟩)
    | setSpeed speed => exact .inr (.inl ⟨rfl, hw⟩)
    | isPaused => exact .inr (.inl ⟨rfl, hw⟩)
    | isRunning => exact .inr (.inl ⟨rfl, hw⟩)
    | machine => exact .inr (.inl ⟨rfl, hw⟩)
    | start observer spawn =>
      simp only [reportsFailure, fault?, called, hbereft.start]
      exact .inr (.inl ⟨rfl, hw⟩)
    | step =>
      exact .inl ⟨by rw [fault?, hbereft.step]; rfl, by rw [called, hbereft.step]⟩
    | request request =>
      have hworker : (s.request request).1.worker? = none := by
        have hw' : (s.prepare request).worker? = some (.panicked p) := by
          rw [worker?_prepare, hw]
        rw [request_of_not_running hbereft.ended, worker?_conclude, collect_of_panicked hw']
      simp only [reportsFailure, fault?]
      cases request with
      | join =>
        rw [hbereft.join]
        exact .inl ⟨rfl, hworker⟩
      | intoMachine =>
        rw [hbereft.intoMachine]
        exact .inl ⟨rfl, hworker⟩
      | drop =>
        rw [hbereft.drop]
        exact .inr (.inr ⟨rfl, hworker, .inl rfl⟩)

end Session

end TapeMachine
