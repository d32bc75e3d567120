import Mathlib.Data.List.Induction
import TapeMachine.Session.Handle

/-!
# Histories of a session

Everything that happens to a session, one event at a time: a call on the handle when it is free for
one, the return of a call that has waited, and a step of the worker (`Session.next?`). The events come
in any order that this allows, so a list of them is one interleaving of handle and worker
(`Session.follow?`), and `Session.tally` counts along it.

Two facts carry all that is said of histories: what a step of the worker can do (`Advance`), and what no
call does (`Frame`).
-/

namespace TapeMachine

/-- The calls on a handle that is free for one. -/
inductive Call (σ α : Type) where
  | pause
  | resume
  | cancel
  | setSpeed (speed : Speed)
  | isPaused
  | isRunning
  | machine
  | start (observer : Observer σ α) (spawn : Spawn)
  | step
  | request (request : Request)

/-- What happens to a session at one time. -/
inductive Event (σ α : Type) where
  /-- The handle is called. -/
  | call (call : Call σ α)
  /-- The call that waits for the worker comes back. -/
  | conclude
  /-- The worker takes a step. -/
  | advance

namespace Session

variable {σ α : Type}

/-- The phase of the worker that is alive. -/
def phase? (s : Session σ α) : Option (Phase σ α) :=
  match s.worker? with
  | some (.alive w) => some w.phase
  | _ => none

theorem phase?_of_alive {s : Session σ α} {w : Worker σ α} (h : s.worker? = some (.alive w)) :
    s.phase? = some w.phase := by
  rw [phase?, h]

theorem phase?_of_not_running {s : Session σ α} (h : s.isRunning = false) : s.phase? = none := by
  unfold phase?
  split
  · rename_i w hw
    rw [isRunning, hw] at h
    cases h
  · rfl

theorem isRunning_of_alive {s : Session σ α} {w : Worker σ α} (h : s.worker? = some (.alive w)) :
    s.isRunning = true := by
  rw [isRunning, h]

theorem exists_alive_of_isRunning {s : Session σ α} (h : s.isRunning = true) :
    ∃ w, s.worker? = some (.alive w) := by
  unfold isRunning at h
  split at h
  · rename_i w hw
    exact ⟨w, hw⟩
  · cases h

variable [DecidableEq σ] [DecidableEq α] [Quoted σ] [Quoted α]

/-- The session once a call has come back or has begun to wait. -/
def called (s : Session σ α) : Call σ α → Session σ α
  | .pause => s.pause
  | .resume => s.resume
  | .cancel => s.cancel
  | .setSpeed speed => s.setSpeed speed
  | .isPaused | .isRunning | .machine => s
  | .start observer spawn => (s.start observer spawn).1
  | .step => s.step.1
  | .request request => (s.request request).1

/-- The session after an event, if it can happen: a call needs a free handle, a return a call that
waits for a worker that has ended. -/
def next? (s : Session σ α) : Event σ α → Option (Session σ α)
  | .call call => if s.handle = .ready then some (s.called call) else none
  | .conclude =>
    match s.handle with
    | .waiting request => if s.isRunning then none else some (s.conclude request).1
    | _ => none
  | .advance => s.advance

theorem next?_call_eq_some_iff {s s' : Session σ α} {call : Call σ α} :
    s.next? (.call call) = some s' ↔ s.handle = .ready ∧ s' = s.called call := by
  unfold next?
  by_cases h : s.handle = .ready
  · simp [h, @eq_comm _ s']
  · simp [h]

theorem next?_conclude_eq_some_iff {s s' : Session σ α} :
    s.next? .conclude = some s' ↔
      ∃ request, s.handle = .waiting request ∧ s.isRunning = false ∧
        s' = (s.conclude request).1 := by
  unfold next?
  cases s.handle with
  | ready => simp
  | waiting request => cases s.isRunning <;> simp [@eq_comm _ s']
  | gone => simp

/-- The session after a list of events, if they can happen one after the other. -/
def follow? (s : Session σ α) : List (Event σ α) → Option (Session σ α)
  | [] => some s
  | e :: es => (s.next? e).bind fun s' => s'.follow? es

/-- How often something is the case at an event of a history. -/
def tally (p : Session σ α → Event σ α → Bool) (s : Session σ α) : List (Event σ α) → Nat
  | [] => 0
  | e :: es =>
    (p s e).toNat +
      match s.next? e with
      | some s' => tally p s' es
      | none => 0

theorem follow?_append (s : Session σ α) (es more : List (Event σ α)) :
    s.follow? (es ++ more) = (s.follow? es).bind fun s' => s'.follow? more := by
  induction es generalizing s with
  | nil => rfl
  | cons e es ih =>
    show (s.next? e).bind (fun s' => s'.follow? (es ++ more)) = _
    simp only [ih, follow?, Option.bind_assoc]

theorem follow?_singleton (s : Session σ α) (e : Event σ α) : s.follow? [e] = s.next? e := by
  show (s.next? e).bind some = s.next? e
  exact Option.bind_fun_some _

/-- What holds of a session and its empty history, and is kept by one more event, holds after every
history. -/
theorem follow?_induction {P : List (Event σ α) → Session σ α → Prop} {s s' : Session σ α}
    {es : List (Event σ α)} (hstart : P [] s)
    (hnext : ∀ es s₁ s₂ e, s.follow? es = some s₁ → P es s₁ → s₁.next? e = some s₂ →
      P (es ++ [e]) s₂)
    (hfollow : s.follow? es = some s') : P es s' := by
  induction es using List.reverseRecOn generalizing s' with
  | nil =>
    cases hfollow
    exact hstart
  | append_singleton es e ih =>
    rw [follow?_append] at hfollow
    obtain ⟨s₁, hs₁, hlast⟩ := Option.bind_eq_some_iff.mp hfollow
    rw [follow?_singleton] at hlast
    exact hnext es s₁ s' e hs₁ (ih hs₁) hlast

/-- One more event counts at the session that the history leads to. -/
theorem tally_concat {p : Session σ α → Event σ α → Bool} {s s' : Session σ α}
    {es : List (Event σ α)} (hfollow : s.follow? es = some s') (e : Event σ α) :
    s.tally p (es ++ [e]) = s.tally p es + (p s' e).toNat := by
  induction es generalizing s with
  | nil =>
    cases hfollow
    simp only [List.nil_append, tally]
    split <;> omega
  | cons e' es ih =>
    obtain ⟨s₁, hs₁, hrest⟩ := Option.bind_eq_some_iff.mp hfollow
    simp only [List.cons_append, tally, hs₁, ih hrest, Nat.add_assoc]

/-! ## What a step of the worker does -/

/-- The steps of a worker that is alive, by its phase. -/
inductive Advance (s : Session σ α) (w : Worker σ α) : Session σ α → Prop
  | stop : w.phase = .gate → s.controls.cancelled = true →
      Advance s w (s.withPhase w (.notify (w.machine.snapshot none .cancelled)))
  | pass : w.phase = .gate → s.controls.cancelled = false → s.controls.paused = false →
      Advance s w (s.withPhase w .cycle)
  | cycle : w.phase = .cycle →
      Advance s w (s.withPhase { w with machine := w.machine.step.1 }
        (.notify (cycleSnapshot w.machine.step.1 w.machine.step.2)))
  | notify {snapshot : Snapshot σ α} : w.phase = .notify snapshot →
      Advance s w ({ s with delivered := s.delivered.push snapshot }.withPhase w
        (.observing snapshot.isTerminal (w.observer (s.delivered.size + 1) snapshot)))
  | panic {last : Bool} {p : Panic} : w.phase = .observing last (some p) →
      Advance s w { s with worker? := some (.panicked p) }
  | finish : w.phase = .observing true none →
      Advance s w { s with worker? := some (.finished w.machine) }
  | sleep : w.phase = .observing false none → Advance s w (s.withPhase w .throttle)
  | wake : w.phase = .throttle → Advance s w (s.withPhase w .gate)

theorem advance_cases {s s' : Session σ α} (h : s.advance = some s') :
    ∃ w, s.worker? = some (.alive w) ∧ s.Advance w s' := by
  unfold advance at h
  split at h
  · rename_i w hw
    refine ⟨w, hw, ?_⟩
    unfold advanceWorker at h
    split at h
    · rename_i hphase
      split at h
      · rename_i hcancelled
        cases h
        exact .stop hphase hcancelled
      · rename_i hcancelled
        split at h
        · cases h
        · rename_i hpaused
          cases h
          exact .pass hphase (Bool.eq_false_iff.mpr hcancelled) (Bool.eq_false_iff.mpr hpaused)
    · rename_i hphase
      cases h
      exact .cycle hphase
    · rename_i snapshot hphase
      cases h
      have hnotify := Advance.notify (s := s) hphase
      rwa [← Array.size_push] at hnotify
    · rename_i last ending hphase
      cases ending with
      | some p =>
        cases h
        exact .panic hphase
      | none =>
        cases last with
        | true =>
          cases h
          exact .finish hphase
        | false =>
          cases h
          exact .sleep hphase
    · rename_i hphase
      cases h
      exact .wake hphase
  · cases h

theorem Advance.advance_eq {s s' : Session σ α} {w : Worker σ α} (h : s.Advance w s')
    (hw : s.worker? = some (.alive w)) : s.advance = some s' := by
  have hworker : s.advance = s.advanceWorker w := by
    rw [advance, hw]
  rw [hworker, advanceWorker]
  cases h with
  | stop hgate hcancelled => simp [hgate, hcancelled]
  | pass hgate hcancelled hpaused => simp [hgate, hcancelled, hpaused]
  | cycle hcycle => simp [hcycle]
  | notify hnotify => simp [hnotify]
  | panic hobserving => simp [hobserving]
  | finish hobserving => simp [hobserving]
  | sleep hobserving => simp [hobserving]
  | wake hthrottle => simp [hthrottle]

theorem handle_of_advance {s s' : Session σ α} (h : s.advance = some s') :
    s'.handle = s.handle := by
  obtain ⟨w, -, hadvance⟩ := advance_cases h
  cases hadvance <;> rfl

theorem controls_of_advance {s s' : Session σ α} (h : s.advance = some s') :
    s'.controls = s.controls := by
  obtain ⟨w, -, hadvance⟩ := advance_cases h
  cases hadvance <;> rfl

theorem started_of_advance {s s' : Session σ α} (h : s.advance = some s') :
    s'.started = s.started := by
  obtain ⟨w, -, hadvance⟩ := advance_cases h
  cases hadvance <;> rfl

/-! ## What a call leaves alone -/

/-- What no call does: it shows nothing to the observer, takes back neither the start nor a
cancellation, makes no worker but by a start, and leaves a worker that is alive alone. -/
structure Frame (s s' : Session σ α) : Prop where
  delivered : s'.delivered = s.delivered
  started : s.started = true → s'.started = true
  cancelled : s.controls.cancelled = true → s'.controls.cancelled = true
  idle : s'.started = false → s.worker? = none → s'.worker? = none
  alive : s.started = true → ∀ w, s'.worker? = some (.alive w) ↔ s.worker? = some (.alive w)

namespace Frame

omit [DecidableEq σ] [DecidableEq α] [Quoted σ] [Quoted α]

theorem refl (s : Session σ α) : s.Frame s :=
  ⟨rfl, id, id, fun _ => id, fun _ _ => Iff.rfl⟩

theorem trans {s s' s'' : Session σ α} (h : s.Frame s') (h' : s'.Frame s'') : s.Frame s'' where
  delivered := h'.delivered.trans h.delivered
  started hs := h'.started (h.started hs)
  cancelled hs := h'.cancelled (h.cancelled hs)
  idle hs hw := by
    have hunstarted : s'.started = false := by
      cases hs' : s'.started with
      | false => rfl
      | true => cases (h'.started hs').symm.trans hs
    exact h'.idle hs (h.idle hunstarted hw)
  alive hs w := (h'.alive (h.started hs) w).trans (h.alive hs w)

/-- A change of the machine, the controls or the handle. -/
theorem of_worker {s s' : Session σ α} (hdelivered : s'.delivered = s.delivered)
    (hstarted : s'.started = s.started) (hworker : s'.worker? = s.worker?)
    (hcancelled : s.controls.cancelled = true → s'.controls.cancelled = true) : s.Frame s' where
  delivered := hdelivered
  started hs := hstarted.trans hs
  cancelled := hcancelled
  idle _ hw := hworker.trans hw
  alive _ w := by rw [hworker]

theorem collect (s : Session σ α) : s.Frame s.collect.1 := by
  unfold Session.collect
  split
  · rename_i m hm
    exact ⟨rfl, id, id, fun _ _ => rfl, fun _ w => by simp [hm]⟩
  · rename_i p hp
    exact ⟨rfl, id, id, fun _ _ => rfl, fun _ w => by simp [hp]⟩
  · exact .refl s

theorem start (s : Session σ α) (observer : Observer σ α) (spawn : Spawn) :
    s.Frame (s.start observer spawn).1 := by
  unfold Session.start
  by_cases hs : s.started = true
  · rw [if_pos hs]
    exact .refl s
  · rw [if_neg hs]
    split
    · exact .refl s
    · split
      · -- the first start makes a worker, and nothing is said of one before it
        have hstarts : true ≠ false := by decide
        exact ⟨rfl, fun h => absurd h hs, id, fun h => absurd h hstarts, fun h => absurd h hs⟩
      · exact .of_worker rfl rfl rfl id

theorem conclude (s : Session σ α) (request : Request) :
    s.Frame (s.conclude request).1 := by
  refine (collect s).trans ?_
  cases request
  · exact .of_worker rfl rfl rfl id
  · exact .of_worker rfl rfl rfl id
  · exact .of_worker rfl rfl rfl id

theorem prepare (s : Session σ α) (request : Request) : s.Frame (s.prepare request) := by
  cases request with
  | join => exact .refl s
  | intoMachine => exact .of_worker rfl rfl rfl fun _ => rfl
  | drop =>
    show s.Frame (if s.worker?.isSome then s.cancel else s)
    split
    · exact .of_worker rfl rfl rfl fun _ => rfl
    · exact .refl s

theorem request (s : Session σ α) (request : Request) : s.Frame (s.request request).1 := by
  unfold Session.request
  split
  · exact .refl s
  · refine (prepare s request).trans ?_
    simp only
    split
    · exact .of_worker rfl rfl rfl id
    · exact conclude _ request

end Frame

theorem Frame.step (s : Session σ α) : s.Frame s.step.1 := by
  have hcollect := Frame.collect s
  unfold Session.step
  split
  · rename_i s' f hs'
    rwa [hs'] at hcollect
  · rename_i s' hs'
    rw [hs'] at hcollect
    split
    · exact hcollect
    · refine hcollect.trans ?_
      simp only
      split <;> exact .of_worker rfl rfl rfl id

theorem Frame.called (s : Session σ α) (call : Call σ α) : s.Frame (s.called call) := by
  cases call with
  | pause => exact .of_worker rfl rfl rfl id
  | resume => exact .of_worker rfl rfl rfl id
  | cancel => exact .of_worker rfl rfl rfl fun _ => rfl
  | setSpeed speed => exact .of_worker rfl rfl rfl id
  | isPaused => exact .refl s
  | isRunning => exact .refl s
  | machine => exact .refl s
  | start observer spawn => exact .start s observer spawn
  | step => exact .step s
  | request request => exact .request s request

/-- An event is a step of the worker or leaves it alone. -/
theorem next?_cases {s s' : Session σ α} {e : Event σ α} (h : s.next? e = some s') :
    (e = .advance ∧ s.advance = some s') ∨ (e ≠ .advance ∧ s.Frame s') := by
  cases e with
  | advance => exact .inl ⟨rfl, h⟩
  | call call =>
    obtain ⟨-, rfl⟩ := next?_call_eq_some_iff.mp h
    exact .inr ⟨by simp, .called s call⟩
  | conclude =>
    obtain ⟨request, -, -, rfl⟩ := next?_conclude_eq_some_iff.mp h
    exact .inr ⟨by simp, .conclude s request⟩

theorem started_of_next? {s s' : Session σ α} {e : Event σ α} (h : s.next? e = some s')
    (hs : s.started = true) : s'.started = true := by
  rcases next?_cases h with ⟨rfl, hadvance⟩ | ⟨-, hframe⟩
  · rw [started_of_advance hadvance, hs]
  · exact hframe.started hs

theorem not_started_of_next? {s s' : Session σ α} {e : Event σ α} (h : s.next? e = some s')
    (hs' : s'.started = false) : s.started = false := by
  cases hs : s.started with
  | false => rfl
  | true => cases (started_of_next? h hs).symm.trans hs'

/-- Only a pause and a resumption touch the gate. -/
theorem paused_of_next? {s s' : Session σ α} {e : Event σ α} (h : s.next? e = some s') :
    s'.controls.paused = s.controls.paused ∨
      (e = .call .pause ∧ s'.controls.paused = true) ∨
      (e = .call .resume ∧ s'.controls.paused = false) := by
  cases e with
  | advance => exact .inl (congrArg Controls.paused (controls_of_advance h))
  | conclude =>
    obtain ⟨request, -, -, rfl⟩ := next?_conclude_eq_some_iff.mp h
    exact .inl (congrArg Controls.paused (controls_conclude s request))
  | call call =>
    obtain ⟨-, rfl⟩ := next?_call_eq_some_iff.mp h
    cases call with
    | pause => exact .inr (.inl ⟨rfl, rfl⟩)
    | resume => exact .inr (.inr ⟨rfl, rfl⟩)
    | cancel => exact .inl rfl
    | setSpeed speed => exact .inl rfl
    | isPaused => exact .inl rfl
    | isRunning => exact .inl rfl
    | machine => exact .inl rfl
    | start observer spawn =>
      exact .inl (congrArg Controls.paused (controls_start s observer spawn))
    | step => exact .inl (congrArg Controls.paused (controls_step s))
    | request request => exact .inl (paused_request s request)

/-- No event takes a cancellation back. -/
theorem cancelled_next? {s s' : Session σ α} {e : Event σ α} (h : s.next? e = some s')
    (hcancelled : s.controls.cancelled = true) : s'.controls.cancelled = true := by
  rcases next?_cases h with ⟨-, hadvance⟩ | ⟨-, hframe⟩
  · rw [controls_of_advance hadvance, hcancelled]
  · exact hframe.cancelled hcancelled

/-- A call that waits has waited before, or has begun to wait for a worker past an open gate. -/
theorem waiting_of_next? {s s' : Session σ α} {e : Event σ α} (h : s.next? e = some s')
    {request : Request} (hwaiting : s'.handle = .waiting request) :
    (s.handle = .waiting request ∧ s'.controls = s.controls) ∨
      (e = .call (.request request) ∧ s.isRunning = true ∧ s'.controls.isHeld = false) := by
  cases e with
  | advance => exact .inl ⟨(handle_of_advance h).symm.trans hwaiting, controls_of_advance h⟩
  | conclude =>
    obtain ⟨request', -, -, rfl⟩ := next?_conclude_eq_some_iff.mp h
    exact absurd hwaiting (handle_conclude_ne_waiting s request' request)
  | call call =>
    obtain ⟨hready, rfl⟩ := next?_call_eq_some_iff.mp h
    have hkept (heq : (s.called call).handle = s.handle) : False := by
      cases (heq.trans hready).symm.trans hwaiting
    cases call with
    | pause => exact (hkept rfl).elim
    | resume => exact (hkept rfl).elim
    | cancel => exact (hkept rfl).elim
    | setSpeed speed => exact (hkept rfl).elim
    | isPaused => exact (hkept rfl).elim
    | isRunning => exact (hkept rfl).elim
    | machine => exact (hkept rfl).elim
    | start observer spawn => exact (hkept (handle_start s observer spawn)).elim
    | step => exact (hkept (handle_step s)).elim
    | request request' =>
      rcases s.request_cases request' with ⟨-, -, -, hs⟩ | ⟨hrunning, hopen, hs⟩ | ⟨-, hs⟩
      · exact (hkept (by rw [called, hs])).elim
      · rw [called, hs] at hwaiting ⊢
        cases hwaiting
        exact .inr ⟨rfl, hrunning, hopen⟩
      · rw [called, hs] at hwaiting
        exact absurd hwaiting (handle_conclude_ne_waiting _ _ _)

/-- Nothing starts a session but a start that succeeds. -/
theorem start_of_next? {s s' : Session σ α} {e : Event σ α} (h : s.next? e = some s')
    (hs : s.started = false) (hs' : s'.started = true) :
    ∃ observer, e = .call (.start observer .granted) ∧
      s.start observer .granted = (s', .ok ()) := by
  have hkept (heq : s'.started = s.started) : False := by
    rw [hs, hs'] at heq
    cases heq
  cases e with
  | advance => exact (hkept (started_of_advance h)).elim
  | conclude =>
    obtain ⟨request, -, -, rfl⟩ := next?_conclude_eq_some_iff.mp h
    exact (hkept (started_conclude s request)).elim
  | call call =>
    obtain ⟨-, rfl⟩ := next?_call_eq_some_iff.mp h
    cases call with
    | pause => exact (hkept rfl).elim
    | resume => exact (hkept rfl).elim
    | cancel => exact (hkept rfl).elim
    | setSpeed speed => exact (hkept rfl).elim
    | isPaused => exact (hkept rfl).elim
    | isRunning => exact (hkept rfl).elim
    | machine => exact (hkept rfl).elim
    | step => exact (hkept (started_step s)).elim
    | request request => exact (hkept (started_request s request)).elim
    | start observer spawn =>
      cases hm : s.machine? with
      | none => exact (hkept (congrArg Session.started (start_of_machine?_none hm _ _))).elim
      | some m =>
        cases spawn with
        | granted =>
          refine ⟨observer, rfl, Prod.ext rfl ?_⟩
          rw [start_eq_ok_iff.mpr ⟨rfl, hs, m, hm, rfl⟩]
        | refused reason =>
          refine (hkept ?_).elim
          simp [called, start, hs, hm]

end Session

end TapeMachine
