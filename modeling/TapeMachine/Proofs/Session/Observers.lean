import TapeMachine.Proofs.Session.Invariants
import TapeMachine.Proofs.Session.Stream

/-!
# What an observer can change

All that reaches a session from its observer is how each call ends: it returns or it panics. So another
observer in its place makes no difference to what the handle is called for (`Session.next?_withObserver`), and
none to the worker up to the first call that ends in another way (`Session.advance_withObserver`).

A session therefore goes the way of the same session with an observer that never panics, as long as no call has
panicked (`Session.Unharmed`); the snapshot whose call does panic is still one of those that the other would be
shown, and it is the last (`Session.Stricken`).
-/

namespace TapeMachine

variable {σ α : Type}

/-- An observer that never panics. -/
def Observer.quiet : Observer σ α :=
  fun _ _ => none

def Thread.withObserver (observer : Observer σ α) : Thread σ α → Thread σ α
  | .alive w => .alive { w with observer := observer }
  | .finished m => .finished m
  | .panicked p => .panicked p

namespace Session

/-- The session with another observer of its worker. -/
def withObserver (s : Session σ α) (observer : Observer σ α) : Session σ α :=
  { s with worker? := s.worker?.map (Thread.withObserver observer) }

section Calls

variable (s : Session σ α) (observer : Observer σ α)

theorem withObserver_of_worker {s : Session σ α} {t : Thread σ α} (h : s.worker? = some t) :
    (s.withObserver observer).worker? = some (t.withObserver observer) := by
  rw [withObserver, h]
  rfl

theorem isRunning_withObserver : (s.withObserver observer).isRunning = s.isRunning := by
  unfold isRunning withObserver
  cases s.worker? with
  | none => rfl
  | some t => cases t <;> rfl

/-! ## Calls on the handle -/

theorem collect_withObserver :
    (s.withObserver observer).collect = (s.collect.1.withObserver observer, s.collect.2) := by
  cases hw : s.worker? with
  | none =>
    have hw' : (s.withObserver observer).worker? = none := by
      rw [withObserver, hw]
      rfl
    rw [collect_of_none hw, collect_of_none hw']
  | some t =>
    have hw' := withObserver_of_worker observer hw
    cases t with
    | alive w => rw [collect_of_alive hw, collect_of_alive hw']
    | finished m =>
      rw [collect_of_finished hw, collect_of_finished hw']
      rfl
    | panicked p =>
      rw [collect_of_panicked hw, collect_of_panicked hw']
      rfl

theorem conclude_withObserver (request : Request) :
    (s.withObserver observer).conclude request =
      ((s.conclude request).1.withObserver observer, (s.conclude request).2) := by
  cases request with
  | join =>
    rw [conclude_join, collect_withObserver]
    rfl
  | drop =>
    rw [conclude_drop, collect_withObserver]
    rfl
  | intoMachine =>
    simp only [conclude, collect_withObserver]
    rfl

theorem prepare_withObserver (request : Request) :
    (s.withObserver observer).prepare request = (s.prepare request).withObserver observer := by
  cases request with
  | join => rfl
  | intoMachine => rfl
  | drop =>
    have hworker : (s.withObserver observer).worker?.isSome = s.worker?.isSome :=
      Option.isSome_map
    simp only [prepare, hworker]
    split <;> rfl

theorem request_withObserver (request : Request) :
    (s.withObserver observer).request request =
      ((s.request request).1.withObserver observer, (s.request request).2) := by
  have hcontrols : (s.withObserver observer).controls = s.controls := rfl
  simp only [Session.request, isRunning_withObserver, hcontrols, prepare_withObserver,
    conclude_withObserver]
  split
  · rfl
  · split <;> rfl

variable [DecidableEq σ] [DecidableEq α] [Quoted σ] [Quoted α]

theorem step_withObserver :
    (s.withObserver observer).step = (s.step.1.withObserver observer, s.step.2) := by
  have hcollect := s.collect_withObserver observer
  cases hs' : s.collect with
  | mk s' collected =>
    rw [hs'] at hcollect
    cases collected with
    | error f => rw [step_of_collect_error hs', step_of_collect_error hcollect]
    | ok u =>
      cases hm : s'.machine? with
      | none => rw [step_of_collect_none hs' hm, step_of_collect_none hcollect hm]
      | some m =>
        rw [step_of_collect_some hs' hm, step_of_collect_some hcollect hm]
        rfl

theorem called_withObserver {s : Session σ α} (hstarted : s.started = true) (call : Call σ α) :
    (s.withObserver observer).called call = (s.called call).withObserver observer := by
  cases call with
  | pause => rfl
  | resume => rfl
  | cancel => rfl
  | setSpeed speed => rfl
  | isPaused => rfl
  | isRunning => rfl
  | machine => rfl
  | start other spawn =>
    have hstarted' : (s.withObserver observer).started = true := hstarted
    simp only [called, start_of_started hstarted, start_of_started hstarted']
  | step => exact congrArg Prod.fst (s.step_withObserver observer)
  | request request => exact congrArg Prod.fst (s.request_withObserver observer request)

/-- A call that can be made of a started session can be made with any observer, and comes to the same. -/
theorem next?_withObserver {s : Session σ α} (hstarted : s.started = true) {e : Event σ α}
    (he : e ≠ .advance) :
    (s.withObserver observer).next? e = (s.next? e).map fun s' => s'.withObserver observer := by
  have hhandle : (s.withObserver observer).handle = s.handle := rfl
  cases e with
  | advance => exact absurd rfl he
  | call call =>
    simp only [next?, hhandle, called_withObserver observer hstarted]
    split <;> rfl
  | conclude =>
    simp only [next?, hhandle]
    split
    · simp only [isRunning_withObserver, conclude_withObserver]
      split <;> rfl
    · rfl

end Calls

/-! ## Steps of the worker -/

variable [DecidableEq σ] [DecidableEq α] [Quoted σ] [Quoted α]

/-- A step with an observer is one with any other whose call ends in the same way, if the step is one. -/
theorem advance_withObserver {s s' : Session σ α} (observer : Observer σ α)
    (hnext : s.advance = some s')
    (hsame : ∀ w snapshot, s.worker? = some (.alive w) → w.phase = .notify snapshot →
      w.observer (s.delivered.size + 1) snapshot = observer (s.delivered.size + 1) snapshot) :
    (s.withObserver observer).advance = some (s'.withObserver observer) := by
  obtain ⟨w, hw, hadvance⟩ := advance_cases hnext
  refine Advance.advance_eq ?_ (withObserver_of_worker observer hw)
  cases hadvance with
  | stop hgate hcancelled => exact .stop hgate hcancelled
  | pass hgate hcancelled hpaused => exact .pass hgate hcancelled hpaused
  | cycle hcycle => exact .cycle hcycle
  | notify hnotify =>
    rw [hsame w _ hw hnotify]
    exact .notify hnotify
  | panic hobserving => exact .panic hobserving
  | finish hobserving => exact .finish hobserving
  | sleep hobserving => exact .sleep hobserving
  | wake hthrottle => exact .wake hthrottle

end Session

/-! ## Up to the first panic -/

/-- The calls for these snapshots return. -/
def Observer.Returns (observer : Observer σ α) (shown : Array (Snapshot σ α)) : Prop :=
  ∀ i snapshot, shown[i]? = some snapshot → observer (i + 1) snapshot = none

theorem Observer.Returns.push {observer : Observer σ α} {shown : Array (Snapshot σ α)}
    {snapshot : Snapshot σ α} (h : observer.Returns shown)
    (hlast : observer (shown.size + 1) snapshot = none) : observer.Returns (shown.push snapshot) := by
  intro i snapshot' hi
  rw [Array.getElem?_push] at hi
  split at hi
  · rename_i hsize
    cases hi
    rw [hsize, hlast]
  · exact h i snapshot' hi

/-- A worker that a panic with `p` has ended or is about to end. -/
def Thread.LostTo (p : Panic) : Thread σ α → Prop
  | .alive w => ∃ last, w.phase = .observing last (some p)
  | .finished _ => False
  | .panicked q => q = p

namespace Session

/-- A worker was started with the observer, and no call has panicked. -/
structure Unharmed (s : Session σ α) (observer : Observer σ α) : Prop where
  started : s.started = true
  observed : ∀ w, s.worker? = some (.alive w) → w.observer = observer
  returning : ∀ w last p, s.worker? = some (.alive w) → w.phase ≠ .observing last (some p)
  unhurt : ∀ p, s.worker? ≠ some (.panicked p)
  returns : observer.Returns s.delivered

/-- A worker was started with the observer, whose last call panics with `p`; the calls before have
returned. -/
structure Stricken (s : Session σ α) (observer : Observer σ α) (p : Panic) : Prop where
  started : s.started = true
  machine : s.machine? = none
  lost : ∀ t, s.worker? = some t → t.LostTo p
  panics : ∃ shown last, s.delivered = shown.push last ∧ observer.Returns shown ∧
    observer (shown.size + 1) last = some p

variable [DecidableEq σ] [DecidableEq α] [Quoted σ] [Quoted α]

namespace Unharmed

variable {s s' : Session σ α} {observer : Observer σ α}

omit [DecidableEq σ] [DecidableEq α] [Quoted σ] [Quoted α] in
theorem of_alive {w : Worker σ α} (hstarted : s.started = true)
    (hw : s.worker? = some (.alive w)) (hobserver : w.observer = observer)
    (hreturning : ∀ last p, w.phase ≠ .observing last (some p))
    (hreturns : observer.Returns s.delivered) : s.Unharmed observer where
  started := hstarted
  observed w' hw' := by
    cases hw.symm.trans hw'
    exact hobserver
  returning w' last p hw' := by
    cases hw.symm.trans hw'
    exact hreturning last p
  unhurt p hp := by
    cases hw.symm.trans hp
  returns := hreturns

theorem change (h : s.Unharmed observer) (hchange : Change s s') : s'.Unharmed observer := by
  cases hchange with
  | adjust controls handle => exact ⟨h.started, h.observed, h.returning, h.unhurt, h.returns⟩
  | lend other hs hm => cases h.started.symm.trans hs
  | reclaim hw => exact ⟨h.started, by simp, by simp, by simp, h.returns⟩
  | bury hw => exact absurd hw (h.unhurt _)
  | giveAway => exact ⟨h.started, h.observed, h.returning, h.unhurt, h.returns⟩
  | cycle hm => exact ⟨h.started, h.observed, h.returning, h.unhurt, h.returns⟩

omit [DecidableEq σ] [DecidableEq α] [Quoted σ] [Quoted α] in
/-- A snapshot is shown in a call that returns or panics. -/
theorem notify {w : Worker σ α} (h : s.Unharmed observer) (hmachine : s.machine? = none)
    (hw : s.worker? = some (.alive w)) (snapshot : Snapshot σ α) :
    let s' := { s with delivered := s.delivered.push snapshot }.withPhase w
      (.observing snapshot.isTerminal (w.observer (s.delivered.size + 1) snapshot))
    (s'.Unharmed observer ∧ observer (s.delivered.size + 1) snapshot = none) ∨
      ∃ p, s'.Stricken observer p := by
  rw [h.observed w hw]
  cases hending : observer (s.delivered.size + 1) snapshot with
  | none =>
    exact .inl ⟨of_alive h.started rfl (h.observed w hw) (by simp) (h.returns.push hending), rfl⟩
  | some p =>
    refine .inr ⟨p, h.started, hmachine, ?_, s.delivered, snapshot, rfl, h.returns, hending⟩
    rintro t ⟨⟩
    exact ⟨snapshot.isTerminal, rfl⟩

/-- A step of the worker is one with an observer that never panics, unless it is the one that shows the
snapshot at which the observer panics. -/
theorem advance (h : s.Unharmed observer) (hapart : s.Apart) (hnext : s.advance = some s') :
    (s'.Unharmed observer ∧
        (s.withObserver .quiet).advance = some (s'.withObserver .quiet)) ∨
      ∃ p q, s'.Stricken observer p ∧ s'.isRunning = true ∧
        (s.withObserver .quiet).advance = some q ∧ q.delivered = s'.delivered := by
  obtain ⟨w, hw, hadvance⟩ := advance_cases hnext
  have hobserver := h.observed w hw
  -- unless a snapshot is shown, the observer is not asked
  have hquiet (hphase : ∀ snapshot, w.phase ≠ .notify snapshot) :
      (s.withObserver .quiet).advance = some (s'.withObserver .quiet) := by
    refine advance_withObserver .quiet hnext fun w' snapshot hw' hnotify => ?_
    cases hw.symm.trans hw'
    exact absurd hnotify (hphase snapshot)
  cases hadvance with
  | stop hgate =>
    exact .inl ⟨of_alive h.started rfl hobserver (by simp) h.returns, hquiet (by simp [hgate])⟩
  | pass hgate =>
    exact .inl ⟨of_alive h.started rfl hobserver (by simp) h.returns, hquiet (by simp [hgate])⟩
  | cycle hcycle =>
    exact .inl ⟨of_alive h.started rfl hobserver (by simp) h.returns, hquiet (by simp [hcycle])⟩
  | notify hnotify =>
    rename_i snapshot
    rcases h.notify (hapart _ hw) hw snapshot with ⟨hunharmed, hreturns⟩ | ⟨p, hp⟩
    · refine .inl ⟨hunharmed, advance_withObserver .quiet hnext fun w' snapshot' hw' hnotify' => ?_⟩
      cases hw.symm.trans hw'
      cases hnotify.symm.trans hnotify'
      rw [hobserver, hreturns]
      rfl
    · have hshown := Advance.notify (s := s.withObserver .quiet)
        (w := { w with observer := .quiet }) hnotify
      exact .inr ⟨p, _, hp, rfl, hshown.advance_eq (withObserver_of_worker .quiet hw), rfl⟩
  | panic hobserving => exact absurd hobserving (h.returning w _ _ hw)
  | finish hobserving =>
    exact .inl ⟨⟨h.started, by simp, by simp, by simp, h.returns⟩, hquiet (by simp [hobserving])⟩
  | sleep hobserving =>
    exact .inl
      ⟨of_alive h.started rfl hobserver (by simp) h.returns, hquiet (by simp [hobserving])⟩
  | wake hthrottle =>
    exact .inl
      ⟨of_alive h.started rfl hobserver (by simp) h.returns, hquiet (by simp [hthrottle])⟩

/-- So is every event. -/
theorem next? {e : Event σ α} (h : s.Unharmed observer) (hapart : s.Apart)
    (hnext : s.next? e = some s') :
    (s'.Unharmed observer ∧ (s.withObserver .quiet).next? e = some (s'.withObserver .quiet)) ∨
      ∃ p q, s'.Stricken observer p ∧ s'.isRunning = true ∧
        (s.withObserver .quiet).next? e = some q ∧ q.delivered = s'.delivered := by
  by_cases he : e = .advance
  · subst he
    exact h.advance hapart hnext
  · refine .inl ⟨changes_induction (fun _ _ => Unharmed.change) h (changes_next? hnext he), ?_⟩
    rw [next?_withObserver .quiet h.started he, hnext]
    rfl

end Unharmed

/-! ## From the first panic on -/

namespace Stricken

variable {s s' : Session σ α} {observer : Observer σ α} {p : Panic}

theorem change (h : s.Stricken observer p) (hchange : Change s s') :
    s'.Stricken observer p ∧ s'.delivered = s.delivered := by
  cases hchange with
  | adjust controls handle => exact ⟨⟨h.started, h.machine, h.lost, h.panics⟩, rfl⟩
  | lend other hs hm => cases h.started.symm.trans hs
  | reclaim hw => exact (h.lost _ hw).elim
  | bury hw => exact ⟨⟨h.started, h.machine, by simp, h.panics⟩, rfl⟩
  | giveAway => exact ⟨⟨h.started, rfl, h.lost, h.panics⟩, rfl⟩
  | cycle hm => cases h.machine.symm.trans hm

theorem advance_eq {w : Worker σ α} (h : s.Stricken observer p)
    (hw : s.worker? = some (.alive w)) :
    s.advance = some { s with worker? := some (.panicked p) } := by
  obtain ⟨last, hphase⟩ := h.lost _ hw
  exact (Advance.panic hphase).advance_eq hw

theorem advance (h : s.Stricken observer p) (hnext : s.advance = some s') :
    s'.Stricken observer p ∧ s'.delivered = s.delivered := by
  obtain ⟨w, hw, -⟩ := advance_cases hnext
  cases (h.advance_eq hw).symm.trans hnext
  refine ⟨⟨h.started, h.machine, ?_, h.panics⟩, rfl⟩
  rintro t ⟨⟩
  exact rfl

theorem next? {e : Event σ α} (h : s.Stricken observer p) (hnext : s.next? e = some s') :
    s'.Stricken observer p ∧ s'.delivered = s.delivered := by
  refine invariant_next? (P := fun s' => s'.Stricken observer p ∧ s'.delivered = s.delivered)
    ?_ ?_ ⟨h, rfl⟩ hnext
  · intro s₁ s₂ h₁ hchange
    have h₂ := h₁.1.change hchange
    exact ⟨h₂.1, h₂.2.trans h₁.2⟩
  · intro s₁ s₂ h₁ hadvance
    have h₂ := h₁.1.advance hadvance
    exact ⟨h₂.1, h₂.2.trans h₁.2⟩

end Stricken

/-! ## Beside an observer that never panics -/

/-- How a session with the observer stands, after some events, to the same session with an observer that never
panics: the events lead both of them to the same, or the first ones have led the other to where it has been
shown what this one has been shown to the end. -/
inductive Course (s₀ : Session σ α) (observer : Observer σ α) : List (Event σ α) → Session σ α → Prop
  | unharmed {es : List (Event σ α)} {s : Session σ α} : s.Unharmed observer →
      (s₀.withObserver .quiet).follow? es = some (s.withObserver .quiet) → Course s₀ observer es s
  | stricken {upto rest : List (Event σ α)} {q s : Session σ α} {p : Panic} :
      (s₀.withObserver .quiet).follow? upto = some q → q.delivered = s.delivered →
      s.Stricken observer p → Course s₀ observer (upto ++ rest) s

theorem Course.next? {s₀ s s' : Session σ α} {observer : Observer σ α} {es : List (Event σ α)}
    {e : Event σ α} (h : s₀.Course observer es s) (hapart : s.Apart) (hnext : s.next? e = some s') :
    s₀.Course observer (es ++ [e]) s' := by
  cases h with
  | stricken hfollow hdelivered hstricken =>
    obtain ⟨hstricken', hdelivered'⟩ := hstricken.next? hnext
    rw [List.append_assoc]
    exact .stricken hfollow (hdelivered.trans hdelivered'.symm) hstricken'
  | unharmed hunharmed hfollow =>
    have hconcat : (s₀.withObserver .quiet).follow? (es ++ [e]) =
        (s.withObserver .quiet).next? e := by
      rw [follow?_append, hfollow]
      exact follow?_singleton _ e
    rcases hunharmed.next? hapart hnext with ⟨hunharmed', hquiet⟩ | ⟨p, q, hstricken, -, hquiet, hq⟩
    · exact .unharmed hunharmed' (hconcat.trans hquiet)
    · rw [← List.append_nil (es ++ [e])]
      exact .stricken (hconcat.trans hquiet) hq hstricken

theorem Course.exists_quiet {s₀ s : Session σ α} {observer : Observer σ α} {es : List (Event σ α)}
    (h : s₀.Course observer es s) :
    ∃ upto q, (s₀.withObserver .quiet).follow? upto = some q ∧ q.delivered = s.delivered := by
  cases h with
  | unharmed hunharmed hfollow => exact ⟨_, _, hfollow, rfl⟩
  | stricken hfollow hdelivered hstricken => exact ⟨_, _, hfollow, hdelivered⟩

theorem Course.of_follow? {s₀ s : Session σ α} {observer : Observer σ α} {es : List (Event σ α)}
    (h : s₀.Unharmed observer) (hapart : s₀.Apart) (hfollow : s₀.follow? es = some s) :
    s₀.Course observer es s := by
  refine follow?_induction (P := fun es s => s₀.Course observer es s) (.unharmed h rfl) ?_ hfollow
  intro es s₁ s₂ e hs₁ hcourse hnext
  exact hcourse.next? (hapart.follow? hs₁) hnext

/-! ## After the start -/

section Start

variable {m₀ : Machine σ α} {speed : Speed} {s₀ s₁ s₂ : Session σ α} {before : List (Event σ α)}
  {observer : Observer σ α}

theorem apart_of_start (hnew : Session.new m₀ speed = .ok s₀) (hbefore : s₀.follow? before = some s₁)
    (hstart : s₁.start observer .granted = (s₂, .ok ())) : s₂.Apart := by
  obtain ⟨-, hs, m, hm, rfl⟩ := start_eq_ok_iff.mp hstart
  exact ((apart_of_new hnew).follow? hbefore).change (.lend observer hs hm)

theorem delivered_of_start (hnew : Session.new m₀ speed = .ok s₀)
    (hbefore : s₀.follow? before = some s₁)
    (hstart : s₁.start observer .granted = (s₂, .ok ())) : s₂.delivered = #[] := by
  obtain ⟨-, hs, m, -, rfl⟩ := start_eq_ok_iff.mp hstart
  obtain ⟨-, rfl⟩ := new_eq_ok_iff.mp hnew
  show s₁.delivered = #[]
  exact delivered_of_not_started hbefore rfl rfl hs

theorem unharmed_of_start (hnew : Session.new m₀ speed = .ok s₀)
    (hbefore : s₀.follow? before = some s₁)
    (hstart : s₁.start observer .granted = (s₂, .ok ())) : s₂.Unharmed observer := by
  have hdelivered := delivered_of_start hnew hbefore hstart
  obtain ⟨-, hs, m, -, rfl⟩ := start_eq_ok_iff.mp hstart
  refine .of_alive rfl rfl rfl (by simp) ?_
  rw [hdelivered]
  intro i snapshot hi
  cases hi

theorem reporting_of_start (hnew : Session.new m₀ speed = .ok s₀)
    (hbefore : s₀.follow? before = some s₁)
    (hstart : s₁.start observer .granted = (s₂, .ok ())) :
    ∃ m, s₁.machine? = some m ∧ (s₂.withObserver .quiet).Reporting m 0 0 := by
  have hdelivered := delivered_of_start hnew hbefore hstart
  obtain ⟨-, hs, m, hm, hs₂⟩ := start_eq_ok_iff.mp hstart
  have hw : (s₂.withObserver .quiet).worker? = some (.alive ⟨m, .quiet, .gate⟩) := by
    rw [hs₂]
    rfl
  have hstarted : (s₂.withObserver .quiet).started = true := by
    rw [hs₂]
    rfl
  refine ⟨m, hm, .of_alive (fun k hk => absurd hk (Nat.not_lt_zero k)) hstarted hw
    (fun _ _ => rfl) ⟨rfl, rfl, ?_⟩⟩
  exact congrArg Array.toList hdelivered

/-- A snapshot that any observer is shown is that of the cycle with its number, unless it tells that the run
is cancelled before. -/
theorem shown_of_start {s : Session σ α} {after : List (Event σ α)}
    (hnew : Session.new m₀ speed = .ok s₀) (hbefore : s₀.follow? before = some s₁)
    (hstart : s₁.start observer .granted = (s₂, .ok ())) (hafter : s₂.follow? after = some s) :
    ∃ m, s₁.machine? = some m ∧ ∀ k snapshot, s.delivered[k]? = some snapshot →
      snapshot = cycleSnapshot (m.stepped (k + 1)) (m.stepped k).step.2 ∨
        snapshot = (m.stepped k).snapshot none .cancelled := by
  obtain ⟨m, hm, hreporting⟩ := reporting_of_start hnew hbefore hstart
  have hcourse := Course.of_follow? (unharmed_of_start hnew hbefore hstart)
    (apart_of_start hnew hbefore hstart) hafter
  -- an observer that never panics is shown the same
  obtain ⟨upto, q, hquiet, hq⟩ := hcourse.exists_quiet
  obtain ⟨shown, hreporting'⟩ := hreporting.follow? hquiet
  refine ⟨m, hm, fun k snapshot hk => ?_⟩
  rw [← hq] at hk
  exact hreporting'.shows hk

end Start

end Session

end TapeMachine
