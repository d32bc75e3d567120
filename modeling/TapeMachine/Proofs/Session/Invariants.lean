import Mathlib.Logic.Relation
import TapeMachine.Proofs.Session.History

/-!
# What every history keeps

An event is a step of the worker or a call, and a call is a chain of few changes (`Session.changes_next?`):
the controls and the handle are set, a worker is made, one that has ended is collected, the machine is given
away or run by hand. What these and the steps of the worker keep holds after every history
(`Session.invariant_follow?`).

The invariants say that there is no worker before the start (`Session.Idle`), that the handle has no machine
while there is a worker (`Session.Apart`), that a call of the observer ends as the observer says for the
snapshot that was shown last (`Session.Observing`), and what is so of every machine if cycles keep it
(`Session.Every`).
-/

namespace TapeMachine

open Relation

variable {σ α : Type}

namespace Session

variable [DecidableEq σ] [DecidableEq α] [Quoted σ] [Quoted α]

/-! ## Changes -/

/-- What a call does to a session at one time. -/
inductive Change : Session σ α → Session σ α → Prop
  | adjust {s : Session σ α} (controls : Controls) (handle : Handle) :
      Change s { s with controls := controls, handle := handle }
  | lend {s : Session σ α} {m : Machine σ α} (observer : Observer σ α) : s.started = false →
      s.machine? = some m →
      Change s { s with
        machine? := none
        worker? := some (.alive ⟨m, observer, .gate⟩)
        started := true }
  | reclaim {s : Session σ α} {m : Machine σ α} : s.worker? = some (.finished m) →
      Change s { s with worker? := none, machine? := some m }
  | bury {s : Session σ α} {p : Panic} : s.worker? = some (.panicked p) →
      Change s { s with worker? := none }
  | giveAway {s : Session σ α} : Change s { s with machine? := none }
  | cycle {s : Session σ α} {m : Machine σ α} : s.machine? = some m →
      Change s { s with machine? := some m.step.1 }

theorem changes_collect (s : Session σ α) : ReflTransGen Change s s.collect.1 := by
  cases hw : s.worker? with
  | none =>
    rw [collect_of_none hw]
  | some t =>
    cases t with
    | alive w => rw [collect_of_alive hw]
    | finished m =>
      rw [collect_of_finished hw]
      exact .single (.reclaim hw)
    | panicked p =>
      rw [collect_of_panicked hw]
      exact .single (.bury hw)

theorem changes_start (s : Session σ α) (observer : Observer σ α) (spawn : Spawn) :
    ReflTransGen Change s (s.start observer spawn).1 := by
  cases hs : s.started with
  | true => rw [start_of_started hs]
  | false =>
    cases hm : s.machine? with
    | none => rw [start_of_machine?_none hm]
    | some m =>
      cases spawn with
      | granted =>
        rw [start_eq_ok_iff.mpr ⟨rfl, hs, m, hm, rfl⟩]
        exact .single (.lend observer hs hm)
      | refused reason =>
        rw [start_of_refused hs hm]
        exact .single .giveAway

theorem changes_conclude (s : Session σ α) (request : Request) :
    ReflTransGen Change s (s.conclude request).1 := by
  refine (changes_collect s).trans ?_
  cases request with
  | join => exact .single (.adjust _ .ready)
  | intoMachine => exact .trans (.single .giveAway) (.single (.adjust _ .gone))
  | drop => exact .trans (.single .giveAway) (.single (.adjust _ .gone))

theorem changes_prepare (s : Session σ α) (request : Request) :
    ReflTransGen Change s (s.prepare request) := by
  rcases s.prepare_cases request with h | h
  · rw [h]
  · rw [h]
    exact .single (.adjust _ s.handle)

theorem changes_request (s : Session σ α) (request : Request) :
    ReflTransGen Change s (s.request request).1 := by
  rcases s.request_cases request with ⟨-, -, -, h⟩ | ⟨-, -, h⟩ | ⟨-, h⟩
  · rw [h]
  · rw [h]
    exact (changes_prepare s request).tail (.adjust _ (.waiting request))
  · rw [h]
    exact (changes_prepare s request).trans (changes_conclude _ request)

theorem changes_step (s : Session σ α) : ReflTransGen Change s s.step.1 := by
  have hchanges := changes_collect s
  cases hs' : s.collect with
  | mk s' collected =>
    rw [hs'] at hchanges
    cases collected with
    | error f =>
      rw [step_of_collect_error hs']
      exact hchanges
    | ok u =>
      cases hm : s'.machine? with
      | none =>
        rw [step_of_collect_none hs' hm]
        exact hchanges
      | some m =>
        rw [step_of_collect_some hs' hm]
        exact hchanges.tail (.cycle hm)

theorem changes_called (s : Session σ α) (call : Call σ α) :
    ReflTransGen Change s (s.called call) := by
  cases call with
  | pause => exact .single (.adjust _ s.handle)
  | resume => exact .single (.adjust _ s.handle)
  | cancel => exact .single (.adjust _ s.handle)
  | setSpeed speed => exact .single (.adjust _ s.handle)
  | isPaused => exact .refl
  | isRunning => exact .refl
  | machine => exact .refl
  | start observer spawn => exact changes_start s observer spawn
  | step => exact changes_step s
  | request request => exact changes_request s request

/-- Every event but a step of the worker is a chain of changes. -/
theorem changes_next? {s s' : Session σ α} {e : Event σ α} (h : s.next? e = some s')
    (he : e ≠ .advance) : ReflTransGen Change s s' := by
  cases e with
  | advance => exact absurd rfl he
  | conclude =>
    obtain ⟨request, -, -, rfl⟩ := next?_conclude_eq_some_iff.mp h
    exact changes_conclude s request
  | call call =>
    obtain ⟨-, rfl⟩ := next?_call_eq_some_iff.mp h
    exact changes_called s call

theorem changes_induction {P : Session σ α → Prop} {s s' : Session σ α}
    (hchange : ∀ s s', P s → Change s s' → P s') (h : P s) (hchain : ReflTransGen Change s s') :
    P s' := by
  induction hchain with
  | refl => exact h
  | tail _ hlast ih => exact hchange _ _ ih hlast

/-- What every change and every step of the worker keeps is kept by every event, -/
theorem invariant_next? {P : Session σ α → Prop} {s s' : Session σ α} {e : Event σ α}
    (hchange : ∀ s s', P s → Change s s' → P s')
    (hadvance : ∀ s s', P s → s.advance = some s' → P s') (h : P s) (hnext : s.next? e = some s') :
    P s' := by
  by_cases he : e = .advance
  · subst he
    exact hadvance s s' h hnext
  · exact changes_induction hchange h (changes_next? hnext he)

/-- and so by every history. -/
theorem invariant_follow? {P : Session σ α → Prop} {s s' : Session σ α} {es : List (Event σ α)}
    (hchange : ∀ s s', P s → Change s s' → P s')
    (hadvance : ∀ s s', P s → s.advance = some s' → P s') (h : P s)
    (hfollow : s.follow? es = some s') : P s' :=
  follow?_induction (P := fun _ s' => P s') h
    (fun _ _ _ _ _ hs₁ hnext => invariant_next? hchange hadvance hs₁ hnext) hfollow

/-! ## Before the start -/

/-- There is no worker before the start. -/
def Idle (s : Session σ α) : Prop :=
  s.started = false → s.worker? = none

omit [DecidableEq σ] [DecidableEq α] [Quoted σ] [Quoted α] in
theorem idle_of_new {m : Machine σ α} {speed : Speed} {s : Session σ α}
    (hnew : Session.new m speed = .ok s) : s.Idle := by
  obtain ⟨-, rfl⟩ := new_eq_ok_iff.mp hnew
  exact fun _ => rfl

theorem Idle.change {s s' : Session σ α} (h : s.Idle) (hchange : Change s s') : s'.Idle := by
  intro hs'
  cases hchange with
  | adjust controls handle => exact h hs'
  | lend observer hs hm => cases hs'
  | reclaim hw => rfl
  | bury hw => rfl
  | giveAway => exact h hs'
  | cycle hm => exact h hs'

theorem Idle.advance {s s' : Session σ α} (h : s.Idle) (hnext : s.advance = some s') : s'.Idle := by
  intro hs'
  -- a worker that takes a step has been started
  rw [started_of_advance hnext] at hs'
  obtain ⟨w, hw, -⟩ := advance_cases hnext
  cases hw.symm.trans (h hs')

theorem Idle.next? {s s' : Session σ α} {e : Event σ α} (h : s.Idle) (hnext : s.next? e = some s') :
    s'.Idle :=
  invariant_next? (fun _ _ => Idle.change) (fun _ _ => Idle.advance) h hnext

theorem Idle.follow? {s s' : Session σ α} {es : List (Event σ α)} (h : s.Idle)
    (hfollow : s.follow? es = some s') : s'.Idle :=
  invariant_follow? (fun _ _ => Idle.change) (fun _ _ => Idle.advance) h hfollow

/-- A call makes a worker by a start that succeeds, and else leaves one that is alive alone. -/
theorem alive_iff_or_start {s s' : Session σ α} {e : Event σ α} (h : s.Idle)
    (hnext : s.next? e = some s') (he : e ≠ .advance) :
    (∀ w, s'.worker? = some (.alive w) ↔ s.worker? = some (.alive w)) ∨
      ∃ observer, e = .call (.start observer .granted) ∧
        s.start observer .granted = (s', .ok ()) := by
  rcases next?_cases hnext with ⟨hadvance, -⟩ | ⟨-, hframe⟩
  · exact absurd hadvance he
  · cases hs : s.started with
    | true => exact .inl (hframe.alive hs)
    | false =>
      cases hs' : s'.started with
      | true => exact .inr (start_of_next? hnext hs hs')
      | false => exact .inl fun w => by rw [h hs, h.next? hnext hs']

/-! ## The machine while there is a worker -/

/-- The handle has no machine while there is a worker. -/
def Apart (s : Session σ α) : Prop :=
  ∀ t, s.worker? = some t → s.machine? = none

omit [DecidableEq σ] [DecidableEq α] [Quoted σ] [Quoted α] in
theorem apart_of_new {m : Machine σ α} {speed : Speed} {s : Session σ α}
    (hnew : Session.new m speed = .ok s) : s.Apart := by
  obtain ⟨-, rfl⟩ := new_eq_ok_iff.mp hnew
  intro t ht
  cases ht

theorem Apart.change {s s' : Session σ α} (h : s.Apart) (hchange : Change s s') : s'.Apart := by
  intro t ht
  cases hchange with
  | adjust controls handle => exact h t ht
  | lend observer hs hm => rfl
  | reclaim hw => cases ht
  | bury hw => cases ht
  | giveAway => rfl
  | cycle hm => cases hm.symm.trans (h t ht)

theorem Apart.advance {s s' : Session σ α} (h : s.Apart) (hnext : s.advance = some s') :
    s'.Apart := by
  obtain ⟨w, hw, hadvance⟩ := advance_cases hnext
  have hmachine := h _ hw
  intro t _
  cases hadvance <;> exact hmachine

theorem Apart.follow? {s s' : Session σ α} {es : List (Event σ α)} (h : s.Apart)
    (hfollow : s.follow? es = some s') : s'.Apart :=
  invariant_follow? (fun _ _ => Apart.change) (fun _ _ => Apart.advance) h hfollow

/-! ## Calls of the observer -/

/-- A call of the observer that has not come back is for the last snapshot shown. -/
def Observing (s : Session σ α) : Prop :=
  ∀ w last ending, s.worker? = some (.alive w) → w.phase = .observing last ending →
    ∃ snapshot, s.delivered.back? = some snapshot ∧ last = snapshot.isTerminal ∧
      ending = w.observer s.delivered.size snapshot

omit [DecidableEq σ] [DecidableEq α] [Quoted σ] [Quoted α] in
/-- There is no call where the worker is at another phase. -/
theorem Observing.of_phase {s : Session σ α} {w : Worker σ α} (hw : s.worker? = some (.alive w))
    (h : ∀ last ending, w.phase ≠ .observing last ending) : s.Observing := by
  intro w' last ending hw' hphase
  cases hw.symm.trans hw'
  exact absurd hphase (h last ending)

omit [DecidableEq σ] [DecidableEq α] [Quoted σ] [Quoted α] in
theorem Observing.of_not_running {s : Session σ α} (h : s.isRunning = false) : s.Observing := by
  intro w last ending hw
  cases (isRunning_of_alive hw).symm.trans h

theorem Observing.change {s s' : Session σ α} (h : s.Observing) (hchange : Change s s') :
    s'.Observing := by
  cases hchange with
  | adjust controls handle => exact h
  | lend observer hs hm => exact .of_phase rfl (by simp)
  | reclaim hw => exact .of_not_running rfl
  | bury hw => exact .of_not_running rfl
  | giveAway => exact h
  | cycle hm => exact h

theorem Observing.advance {s s' : Session σ α} (hnext : s.advance = some s') : s'.Observing := by
  obtain ⟨w, hw, hadvance⟩ := advance_cases hnext
  cases hadvance with
  | stop hgate => exact .of_phase rfl (by simp)
  | pass hgate => exact .of_phase rfl (by simp)
  | cycle hcycle => exact .of_phase rfl (by simp)
  | notify hnotify =>
    rename_i snapshot
    rintro w' last ending ⟨⟩ ⟨⟩
    exact ⟨snapshot, Array.back?_push, rfl, by rw [withPhase, Array.size_push]⟩
  | panic hobserving => exact .of_not_running rfl
  | finish hobserving => exact .of_not_running rfl
  | sleep hobserving => exact .of_phase rfl (by simp)
  | wake hthrottle => exact .of_phase rfl (by simp)

theorem observing_of_new {m : Machine σ α} {speed : Speed} {s₀ s : Session σ α}
    {es : List (Event σ α)} (hnew : Session.new m speed = .ok s₀)
    (hfollow : s₀.follow? es = some s) : s.Observing := by
  have hobserving : s₀.Observing := by
    obtain ⟨-, rfl⟩ := new_eq_ok_iff.mp hnew
    exact .of_not_running rfl
  exact invariant_follow? (fun _ _ => Observing.change) (fun _ _ _ => Observing.advance) hobserving
    hfollow

/-! ## Machines -/

/-- Every machine of the session is such, wherever it is. -/
structure Every (P : Machine σ α → Prop) (s : Session σ α) : Prop where
  held : ∀ m, s.machine? = some m → P m
  alive : ∀ w, s.worker? = some (.alive w) → P w.machine
  finished : ∀ m, s.worker? = some (.finished m) → P m

namespace Every

variable {P : Machine σ α → Prop} {s s' : Session σ α}

omit [DecidableEq σ] [DecidableEq α] [Quoted σ] [Quoted α] in
theorem of_new {m : Machine σ α} {speed : Speed} (h : P m) (hnew : Session.new m speed = .ok s) :
    s.Every P := by
  obtain ⟨-, rfl⟩ := new_eq_ok_iff.mp hnew
  exact ⟨by rintro m ⟨⟩; exact h, by rintro w ⟨⟩, by rintro m ⟨⟩⟩

omit [DecidableEq σ] [DecidableEq α] [Quoted σ] [Quoted α] in
theorem of_alive {w : Worker σ α} (hheld : ∀ m, s.machine? = some m → P m)
    (hw : s.worker? = some (.alive w)) (h : P w.machine) : s.Every P where
  held := hheld
  alive w' hw' := by
    cases hw.symm.trans hw'
    exact h
  finished m hm := by
    cases hw.symm.trans hm

theorem advance (hstep : ∀ m, P m → P m.step.1) (h : s.Every P) (hnext : s.advance = some s') :
    s'.Every P := by
  obtain ⟨w, hw, hadvance⟩ := advance_cases hnext
  have hmachine := h.alive w hw
  cases hadvance with
  | stop hgate => exact of_alive h.held rfl hmachine
  | pass hgate => exact of_alive h.held rfl hmachine
  | cycle hcycle => exact of_alive h.held rfl (hstep _ hmachine)
  | notify hnotify => exact of_alive h.held rfl hmachine
  | panic hobserving => exact ⟨h.held, by simp, by simp⟩
  | finish hobserving =>
    refine ⟨h.held, by simp, ?_⟩
    rintro m ⟨⟩
    exact hmachine
  | sleep hobserving => exact of_alive h.held rfl hmachine
  | wake hthrottle => exact of_alive h.held rfl hmachine

theorem change (hstep : ∀ m, P m → P m.step.1) (h : s.Every P) (hchange : Change s s') :
    s'.Every P := by
  cases hchange with
  | adjust controls handle => exact ⟨h.held, h.alive, h.finished⟩
  | lend observer hs hm => exact of_alive (by simp) rfl (h.held _ hm)
  | reclaim hw =>
    refine ⟨?_, by simp, by simp⟩
    rintro m ⟨⟩
    exact h.finished _ hw
  | bury hw => exact ⟨h.held, by simp, by simp⟩
  | giveAway => exact ⟨by simp, h.alive, h.finished⟩
  | cycle hm =>
    refine ⟨?_, h.alive, h.finished⟩
    rintro m ⟨⟩
    exact hstep _ (h.held _ hm)

theorem collect (hstep : ∀ m, P m → P m.step.1) (h : s.Every P) : s.collect.1.Every P :=
  changes_induction (fun _ _ => Every.change hstep) h (changes_collect s)

/-- What holds of the machine that a session is made for, and is kept by cycles, holds of every machine of
the session at every time. -/
theorem follow? {es : List (Event σ α)} (hstep : ∀ m, P m → P m.step.1) (h : s.Every P)
    (hfollow : s.follow? es = some s') : s'.Every P :=
  invariant_follow? (fun _ _ => Every.change hstep) (fun _ _ => Every.advance hstep) h hfollow

end Every

end Session

end TapeMachine
