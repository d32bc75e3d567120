import TapeMachine.Proofs.Session.Ending
import TapeMachine.Proofs.Session.Invariants
import TapeMachine.Proofs.Session.Stream

/-!
# Pauses and cancellations

A worker that comes to the gate of a session that is paused or cancelled gets to no further cycle. One that
has passed the gate already runs the cycle it is at, and comes to the gate then. So at most one cycle
follows a pause until the session is resumed, and at most one follows a cancellation, whatever else happens
(`Session.tally_callsCycle_le`).

What a cancelled worker has still to show is settled when it is cancelled (`Worker.closing`): the cycle that
it has run or is about to run, if there is one, and then that it is cancelled, with the machine as that
cycle has left it. From then on what has been shown and what is still to be shown make up the same list at
all times (`Session.closing_follow?`).
-/

namespace TapeMachine

variable {σ α : Type} [DecidableEq σ] [DecidableEq α] [Quoted σ] [Quoted α]

/-- Tells that the gate lets no worker through to a cycle. -/
def Controls.isShut (c : Controls) : Bool :=
  c.paused || c.cancelled

/-- The call that opens the gate again. -/
def Event.Resumes : Event σ α → Prop
  | .call .resume => True
  | _ => False

namespace Session

/-- Tells that the worker has passed the gate of a cycle that it has still to run. -/
def hasPassed (s : Session σ α) : Bool :=
  s.phase? matches some .cycle

/-! ## Cycles behind a gate that is shut -/

theorem isShut_next? {s s' : Session σ α} {e : Event σ α} (h : s.next? e = some s')
    (hshut : s.controls.isShut = true) (hkept : s.controls.cancelled = true ∨ ¬e.Resumes) :
    s'.controls.isShut = true := by
  simp only [Controls.isShut, Bool.or_eq_true] at hshut ⊢
  by_cases hcancelled : s.controls.cancelled = true
  · exact .inr (cancelled_next? h hcancelled)
  · have hpaused : s.controls.paused = true := hshut.resolve_right hcancelled
    rcases paused_of_next? h with hsame | ⟨-, hpaused'⟩ | ⟨rfl, -⟩
    · exact .inl (hsame.trans hpaused)
    · exact .inl hpaused'
    · exact absurd trivial (hkept.resolve_left hcancelled)

/-- No call takes a worker past the gate. -/
theorem hasPassed_le_of_call {s s' : Session σ α} {e : Event σ α} (hidle : s.Idle)
    (h : s.next? e = some s') (he : e ≠ .advance) : s'.hasPassed.toNat ≤ s.hasPassed.toNat := by
  rcases alive_iff_or_start hidle h he with halive | ⟨observer, -, hstart⟩
  · cases hrunning : s'.isRunning with
    | true =>
      obtain ⟨w, hw⟩ := exists_alive_of_isRunning hrunning
      refine Nat.le_of_eq ?_
      rw [hasPassed, hasPassed, phase?_of_alive hw, phase?_of_alive ((halive w).mp hw)]
    | false =>
      rw [hasPassed, phase?_of_not_running hrunning]
      exact Nat.zero_le _
  · -- a new worker begins before the gate
    obtain ⟨-, -, m, -, rfl⟩ := start_eq_ok_iff.mp hstart
    exact Nat.zero_le _

/-- A worker that has passed the gate may run one cycle more, and gets past the gate no further time. -/
theorem callsCycle_add_hasPassed_le {s s' : Session σ α} {e : Event σ α} (hidle : s.Idle)
    (hshut : s.controls.isShut = true) (hnext : s.next? e = some s') :
    (s.callsCycle e).toNat + s'.hasPassed.toNat ≤ s.hasPassed.toNat := by
  by_cases he : e = .advance
  · subst he
    obtain ⟨w, hw, hadvance⟩ := advance_cases hnext
    simp only [callsCycle, hasPassed, phase?_of_alive hw]
    cases hadvance with
    | stop hgate =>
      rw [hgate]
      exact Nat.le_refl 0
    | pass hgate hcancelled hpaused =>
      simp [Controls.isShut, hcancelled, hpaused] at hshut
    | cycle hcycle =>
      rw [hcycle]
      exact Nat.le_refl 1
    | notify hnotify =>
      rw [hnotify]
      exact Nat.le_refl 0
    | panic hobserving =>
      rw [hobserving]
      exact Nat.le_refl 0
    | finish hobserving =>
      rw [hobserving]
      exact Nat.le_refl 0
    | sleep hobserving =>
      rw [hobserving]
      exact Nat.le_refl 0
    | wake hthrottle =>
      rw [hthrottle]
      exact Nat.le_refl 0
  · have hno : s.callsCycle e = false := by
      cases e with
      | advance => exact absurd rfl he
      | call call => rfl
      | conclude => rfl
    rw [hno, Bool.toNat_false, Nat.zero_add]
    exact hasPassed_le_of_call hidle hnext he

/-- Behind a gate that stays shut no cycle begins. -/
theorem tally_callsCycle_le {s s' : Session σ α} {es : List (Event σ α)} (hidle : s.Idle)
    (hshut : s.controls.isShut = true)
    (hkept : s.controls.cancelled = true ∨ ∀ e ∈ es, ¬e.Resumes) (hfollow : s.follow? es = some s') :
    s.tally callsCycle es + s'.hasPassed.toNat ≤ s.hasPassed.toNat := by
  have hrun : (s'.controls.isShut = true ∧
      (s.controls.cancelled = true → s'.controls.cancelled = true)) ∧
        s.tally callsCycle es + s'.hasPassed.toNat ≤ s.hasPassed.toNat := by
    refine follow?_induction (P := fun es s' =>
      (s.controls.cancelled = true ∨ ∀ e ∈ es, ¬e.Resumes) →
        (s'.controls.isShut = true ∧
          (s.controls.cancelled = true → s'.controls.cancelled = true)) ∧
          s.tally callsCycle es + s'.hasPassed.toNat ≤ s.hasPassed.toNat)
      (fun _ => ⟨⟨hshut, id⟩, by simp [tally]⟩) ?_ hfollow hkept
    intro es s₁ s₂ e hs₁ ih hnext hkept
    obtain ⟨⟨hshut₁, hcancelled₁⟩, hle⟩ :=
      ih (hkept.imp_right fun h e' he' => h e' (List.mem_append_left _ he'))
    have hkept₁ : s₁.controls.cancelled = true ∨ ¬e.Resumes :=
      hkept.imp hcancelled₁ fun h => h e (by simp)
    have hstep := callsCycle_add_hasPassed_le (hidle.follow? hs₁) hshut₁ hnext
    refine ⟨⟨isShut_next? hnext hshut₁ hkept₁, fun h => cancelled_next? hnext (hcancelled₁ h)⟩, ?_⟩
    rw [tally_concat hs₁]
    omega
  exact hrun.2

/-! ## What is still to be shown -/

end Session

/-- The snapshots from one on, with `m` the machine once it is shown: nothing follows it if it is terminal
or if the observer panics at it, and else the cancellation does. -/
def Worker.closingFrom (w : Worker σ α) (calls : Nat) (m : Machine σ α) (snapshot : Snapshot σ α) :
    List (Snapshot σ α) :=
  if snapshot.isTerminal || (w.observer (calls + 1) snapshot).isSome then [snapshot]
  else [snapshot, m.snapshot none .cancelled]

/-- What a cancelled worker still shows after so many calls of the observer: the cycle that it has run or
that it has passed the gate of, if there is one, and then that it is cancelled, unless it has come to its
end before. -/
def Worker.closing (w : Worker σ α) (calls : Nat) : List (Snapshot σ α) :=
  match w.phase with
  | .cycle =>
    w.closingFrom calls w.machine.step.1 (cycleSnapshot w.machine.step.1 w.machine.step.2)
  | .notify snapshot => w.closingFrom calls w.machine snapshot
  | .observing last ending =>
    if last || ending.isSome then [] else [w.machine.snapshot none .cancelled]
  | .gate | .throttle => [w.machine.snapshot none .cancelled]

namespace Session

/-- What a cancelled session still shows. -/
def closing (s : Session σ α) : List (Snapshot σ α) :=
  match s.worker? with
  | some (.alive w) => w.closing s.delivered.size
  | _ => []

theorem closing_of_alive {s : Session σ α} {w : Worker σ α} (h : s.worker? = some (.alive w)) :
    s.closing = w.closing s.delivered.size := by
  rw [closing, h]

theorem closing_of_not_running {s : Session σ α} (h : s.isRunning = false) : s.closing = [] := by
  unfold closing
  split
  · rename_i w hw
    cases (isRunning_of_alive hw).symm.trans h
  · rfl

theorem closing_congr {s s' : Session σ α} (hdelivered : s'.delivered = s.delivered)
    (halive : ∀ w, s'.worker? = some (.alive w) ↔ s.worker? = some (.alive w)) :
    s'.closing = s.closing := by
  cases hrunning : s'.isRunning with
  | true =>
    obtain ⟨w, hw⟩ := exists_alive_of_isRunning hrunning
    rw [closing_of_alive hw, closing_of_alive ((halive w).mp hw), hdelivered]
  | false =>
    have hended : s.isRunning = false := by
      rw [Bool.eq_false_iff]
      intro hs
      obtain ⟨w, hw⟩ := exists_alive_of_isRunning hs
      cases (isRunning_of_alive ((halive w).mpr hw)).symm.trans hrunning
    rw [closing_of_not_running hrunning, closing_of_not_running hended]

/-- A step of a cancelled worker shows what comes next, and leaves the rest to be shown. -/
theorem closing_advance {s s' : Session σ α} (hcancelled : s.controls.cancelled = true)
    (hnext : s.advance = some s') :
    s'.delivered.toList ++ s'.closing = s.delivered.toList ++ s.closing := by
  obtain ⟨w, hw, hadvance⟩ := advance_cases hnext
  rw [closing_of_alive hw]
  cases hadvance with
  | stop hgate =>
    -- that it is cancelled is the last that is shown
    rw [closing_of_alive rfl]
    simp [Worker.closing, Worker.closingFrom, hgate, Machine.snapshot, Snapshot.isTerminal,
      Status.isTerminal, withPhase]
  | pass hgate hopen => cases hopen.symm.trans hcancelled
  | cycle hcycle =>
    rw [closing_of_alive rfl]
    simp only [Worker.closing, hcycle]
    rfl
  | notify hnotify =>
    rename_i snapshot
    rw [closing_of_alive rfl]
    simp only [Worker.closing, Worker.closingFrom, hnotify, withPhase, Array.toList_push,
      List.append_assoc]
    split <;> rfl
  | panic hobserving =>
    rw [closing_of_not_running rfl]
    simp [Worker.closing, hobserving]
  | finish hobserving =>
    rw [closing_of_not_running rfl]
    simp [Worker.closing, hobserving]
  | sleep hobserving =>
    rw [closing_of_alive rfl]
    simp only [Worker.closing, hobserving]
    rfl
  | wake hthrottle =>
    rw [closing_of_alive rfl]
    simp only [Worker.closing, hthrottle]
    rfl

theorem closing_next? {s s' : Session σ α} {e : Event σ α} (hstarted : s.started = true)
    (hcancelled : s.controls.cancelled = true) (hnext : s.next? e = some s') :
    s'.delivered.toList ++ s'.closing = s.delivered.toList ++ s.closing := by
  rcases next?_cases hnext with ⟨-, hadvance⟩ | ⟨-, hframe⟩
  · exact closing_advance hcancelled hadvance
  · rw [closing_congr hframe.delivered (hframe.alive hstarted), hframe.delivered]

theorem cancelled_follow? {s s' : Session σ α} {es : List (Event σ α)}
    (hcancelled : s.controls.cancelled = true) (hfollow : s.follow? es = some s') :
    s'.controls.cancelled = true :=
  follow?_induction (P := fun _ s' => s'.controls.cancelled = true) hcancelled
    (fun _ _ _ _ _ h hnext => cancelled_next? hnext h) hfollow

/-- What has been shown and what is still to be shown make up the same list at all times. -/
theorem closing_follow? {s s' : Session σ α} {es : List (Event σ α)} (hstarted : s.started = true)
    (hcancelled : s.controls.cancelled = true) (hfollow : s.follow? es = some s') :
    s'.delivered.toList ++ s'.closing = s.delivered.toList ++ s.closing := by
  have hrun : s'.started = true ∧
      s'.delivered.toList ++ s'.closing = s.delivered.toList ++ s.closing := by
    refine follow?_induction (P := fun _ s' => s'.started = true ∧
      s'.delivered.toList ++ s'.closing = s.delivered.toList ++ s.closing)
      ⟨hstarted, rfl⟩ ?_ hfollow
    intro es s₁ s₂ e hs₁ ⟨hstarted₁, hsame⟩ hnext
    refine ⟨started_of_next? hnext hstarted₁, ?_⟩
    rw [closing_next? hstarted₁ (cancelled_follow? hcancelled hs₁) hnext, hsame]
  exact hrun.2

/-! ## After a cancellation -/

/-- A session that shows certain snapshots in all: the first of them so far, all of them once the worker
has ended, and that is within seven steps of the worker. -/
structure Completes (s : Session σ α) (all : List (Snapshot σ α)) : Prop where
  shown : s.delivered.toList <+: all
  ended : s.isRunning = false → s.delivered.toList = all
  ends : ∃ k ≤ 7, ∃ s', s.follow? (List.replicate k .advance) = some s' ∧ s'.isRunning = false

theorem Completes.of_closing {s : Session σ α} {all : List (Snapshot σ α)}
    (hends : s.controls.cancelled = true ∨ s.isRunning = false)
    (hall : s.delivered.toList ++ s.closing = all) : s.Completes all where
  shown := ⟨s.closing, hall⟩
  ended hended := by
    rw [closing_of_not_running hended, List.append_nil] at hall
    exact hall
  ends := by
    rcases hends with hcancelled | hended
    · obtain ⟨k, hk, s', hfollow, hended, -⟩ := ends_of_cancelled hcancelled
      exact ⟨k, hk, s', hfollow, hended⟩
    · exact ⟨0, Nat.zero_le 7, s, rfl, hended⟩

/-- The handle has been given up, and there is neither a worker nor a machine. -/
structure Over (s : Session σ α) : Prop where
  gone : s.handle = .gone
  worker : s.worker? = none
  machine : s.machine? = none

omit [DecidableEq σ] [DecidableEq α] [Quoted σ] [Quoted α] in
theorem Over.isRunning {s : Session σ α} (h : s.Over) : s.isRunning = false := by
  rw [Session.isRunning, h.worker]

theorem Over.next? {s : Session σ α} (h : s.Over) (e : Event σ α) : s.next? e = none := by
  cases e with
  | advance => simp [Session.next?, advance, h.worker]
  | call call => simp [Session.next?, h.gone]
  | conclude => simp [Session.next?, h.gone]

theorem Over.follow? {s s' : Session σ α} {es : List (Event σ α)} (h : s.Over)
    (hfollow : s.follow? es = some s') : es = [] ∧ s' = s := by
  cases es with
  | nil => exact ⟨rfl, (Option.some.inj hfollow).symm⟩
  | cons e es =>
    obtain ⟨s₁, hs₁, -⟩ := Option.bind_eq_some_iff.mp hfollow
    cases hs₁.symm.trans (h.next? e)

/-- To drop a session without a worker ends it; every other cancellation is there for the worker. -/
theorem cancelled_or_over {s s' : Session σ α} {e : Event σ α} (he : e.Cancels)
    (hnext : s.next? e = some s') : s'.controls.cancelled = true ∨ s'.Over := by
  cases e with
  | advance => exact he.elim
  | conclude => exact he.elim
  | call call =>
    obtain ⟨-, rfl⟩ := next?_call_eq_some_iff.mp hnext
    cases call with
    | cancel => exact .inl rfl
    | request request =>
      have hcontrols := controls_request_of_ne_join s he
      cases request with
      | join => exact absurd rfl he
      | intoMachine => exact .inl (congrArg Controls.cancelled hcontrols)
      | drop =>
        cases hw : s.worker? with
        | some t =>
          refine .inl ((congrArg Controls.cancelled hcontrols).trans ?_)
          simp [prepare, hw, cancel]
        | none =>
          have hdrop : (s.request .drop).1 = (s.conclude .drop).1 := by
            simp [Session.request, prepare, hw, isRunning]
          refine .inr ⟨?_, ?_, ?_⟩
          · exact congrArg Session.handle hdrop
          · refine (congrArg Session.worker? hdrop).trans ?_
            show s.collect.1.worker? = none
            rw [collect_of_none hw, hw]
          · exact congrArg Session.machine? hdrop
    | pause => exact he.elim
    | resume => exact he.elim
    | setSpeed speed => exact he.elim
    | isPaused => exact he.elim
    | isRunning => exact he.elim
    | machine => exact he.elim
    | start observer spawn => exact he.elim
    | step => exact he.elim

/-- A worker that begins in a cancelled session runs no cycle and shows only that it is cancelled. -/
theorem completes_of_start {s s₁ s' : Session σ α} {es : List (Event σ α)}
    {observer : Observer σ α} (hcancelled : s.controls.cancelled = true)
    (hdelivered : s.delivered = #[]) (hstart : s.start observer .granted = (s₁, .ok ()))
    (hfollow : s₁.follow? es = some s') :
    ∃ m, s.machine? = some m ∧ s₁.tally callsCycle es = 0 ∧
      s'.Completes [m.snapshot none .cancelled] := by
  obtain ⟨-, -, m, hm, hs₁⟩ := start_eq_ok_iff.mp hstart
  have hstarted₁ : s₁.started = true := congrArg Session.started hs₁
  have hcancelled₁ : s₁.controls.cancelled = true :=
    (congrArg (fun s => s.controls.cancelled) hs₁).trans hcancelled
  have hidle₁ : s₁.Idle := fun h => by cases h.symm.trans hstarted₁
  have hpassed₁ : s₁.hasPassed = false := congrArg hasPassed hs₁
  have hclosing₁ : s₁.delivered.toList ++ s₁.closing = [m.snapshot none .cancelled] := by
    rw [hs₁, closing_of_alive rfl, hdelivered]
    rfl
  refine ⟨m, hm, ?_, ?_⟩
  · have hshut : s₁.controls.isShut = true := by
      rw [Controls.isShut, hcancelled₁, Bool.or_true]
    have hle := tally_callsCycle_le hidle₁ hshut (.inl hcancelled₁) hfollow
    rw [hpassed₁, Bool.toNat_false] at hle
    omega
  · refine .of_closing (.inl (cancelled_follow? hcancelled₁ hfollow)) ?_
    rw [closing_follow? hstarted₁ hcancelled₁ hfollow, hclosing₁]

theorem follow?_cons_append {s₀ s s₁ s' : Session σ α} {es after : List (Event σ α)} {e : Event σ α}
    (hfollow : s₀.follow? es = some s) (hnext : s.next? e = some s₁)
    (hafter : s₁.follow? after = some s') : s₀.follow? (es ++ e :: after) = some s' := by
  rw [follow?_append, hfollow, Option.bind_some, follow?, hnext, Option.bind_some, hafter]

section Cancelled

variable {s s₁ s' : Session σ α} {e : Event σ α} {after : List (Event σ α)}

omit [DecidableEq σ] [DecidableEq α] [Quoted σ] [Quoted α] in
theorem ne_advance_of_cancels (he : e.Cancels) : e ≠ .advance := by
  rintro rfl
  exact he

/-- What a worker still shows is settled before the call that cancels. -/
theorem delivered_closing_of_call (hcall : e ≠ .advance) (hnext : s.next? e = some s₁)
    (hstarted : s.started = true) :
    s₁.started = true ∧ s₁.delivered.toList ++ s₁.closing = s.delivered.toList ++ s.closing := by
  rcases next?_cases hnext with ⟨hadvance, -⟩ | ⟨-, hframe⟩
  · exact absurd hadvance hcall
  · refine ⟨hframe.started hstarted, ?_⟩
    rw [closing_congr hframe.delivered (hframe.alive hstarted), hframe.delivered]

theorem tally_callsCycle_of_cancels (hidle : s.Idle) (he : e.Cancels) (hnext : s.next? e = some s₁)
    (hafter : s₁.follow? after = some s') : s₁.tally callsCycle after ≤ s.hasPassed.toNat := by
  rcases cancelled_or_over he hnext with hcancelled | hover
  · have hshut : s₁.controls.isShut = true := by
      rw [Controls.isShut, hcancelled, Bool.or_true]
    have hle := tally_callsCycle_le (hidle.next? hnext) hshut (.inl hcancelled) hafter
    have hpassed := hasPassed_le_of_call hidle hnext (ne_advance_of_cancels he)
    omega
  · obtain ⟨rfl, -⟩ := hover.follow? hafter
    exact Nat.zero_le _

theorem completes_of_cancels (he : e.Cancels) (hnext : s.next? e = some s₁)
    (hafter : s₁.follow? after = some s') (hstarted : s.started = true) :
    s'.Completes (s.delivered.toList ++ s.closing) := by
  obtain ⟨hstarted₁, hclosing⟩ := delivered_closing_of_call (ne_advance_of_cancels he) hnext hstarted
  rcases cancelled_or_over he hnext with hcancelled | hover
  · refine .of_closing (.inl (cancelled_follow? hcancelled hafter)) ?_
    rw [closing_follow? hstarted₁ hcancelled hafter, hclosing]
  · obtain ⟨-, rfl⟩ := hover.follow? hafter
    exact .of_closing (.inr hover.isRunning) hclosing

/-- A session that was cancelled and can still be started is cancelled then. -/
theorem cancelled_of_start {observer : Observer σ α} {s₂ : Session σ α} (he : e.Cancels)
    (hnext : s.next? e = some s₁) (hafter : s₁.follow? after = some s')
    (hstart : s'.start observer .granted = (s₂, .ok ())) : s'.controls.cancelled = true := by
  rcases cancelled_or_over he hnext with hcancelled | hover
  · exact cancelled_follow? hcancelled hafter
  · obtain ⟨-, rfl⟩ := hover.follow? hafter
    obtain ⟨-, -, m, hm, -⟩ := start_eq_ok_iff.mp hstart
    cases hm.symm.trans hover.machine

end Cancelled

/-- At most one cycle follows a pause before the session is resumed, and at most one follows a cancellation,
both only if the worker has passed the gate of that cycle by then. What a cancelled worker still shows is
that cycle, or the one that it has just run, and that it is cancelled; one that is started later shows
only the latter. -/
theorem interrupted_after_new {m : Machine σ α} {speed : Speed} {s₀ s : Session σ α}
    {es : List (Event σ α)} (hnew : Session.new m speed = .ok s₀)
    (hfollow : s₀.follow? es = some s) :
    (∀ s₁ after s', s.next? (.call .pause) = some s₁ → s₁.follow? after = some s' →
      (∀ e ∈ after, ¬e.Resumes) → s₁.tally callsCycle after ≤ s.hasPassed.toNat) ∧
    ∀ e s₁ after s', e.Cancels → s.next? e = some s₁ → s₁.follow? after = some s' →
      s₁.tally callsCycle after ≤ s.hasPassed.toNat ∧
      (s.started = true → s'.Completes (s.delivered.toList ++ s.closing)) ∧
      ∀ observer s₂ more s₃, s'.start observer .granted = (s₂, .ok ()) →
        s₂.follow? more = some s₃ →
        ∃ m', s'.machine? = some m' ∧ s₂.tally callsCycle more = 0 ∧
          s₃.Completes [m'.snapshot none .cancelled] := by
  have hidle : s.Idle := (idle_of_new hnew).follow? hfollow
  refine ⟨?_, ?_⟩
  · intro s₁ after s' hpause hafter hkept
    obtain ⟨-, rfl⟩ := next?_call_eq_some_iff.mp hpause
    have hle := tally_callsCycle_le (hidle.next? hpause) rfl (.inr hkept) hafter
    exact Nat.le_trans (Nat.le_add_right _ _) hle
  · intro e s₁ after s' he hnext hafter
    refine ⟨tally_callsCycle_of_cancels hidle he hnext hafter,
      completes_of_cancels he hnext hafter, ?_⟩
    intro observer s₂ more s₃ hstart hmore
    refine completes_of_start (cancelled_of_start he hnext hafter hstart) ?_ hstart hmore
    obtain ⟨-, rfl⟩ := new_eq_ok_iff.mp hnew
    exact delivered_of_not_started (follow?_cons_append hfollow hnext hafter) rfl rfl
      (start_eq_ok_iff.mp hstart).2.1

/-- A worker that is paused past the gate and then cancelled: it runs the one cycle. -/
theorem interrupted_after_new_passed :
    let config : Config Int Int := ⟨0, 1, ⟨0, 9⟩, .consume⟩
    let rule : Rule Int Int := ⟨⟨0, [0], [0]⟩, [5], [7], [.left], 0⟩
    let m := (Machine.new config).after [.addTape [], .addStack [], .addAction rule, .init]
    let es := [.call (.start (fun _ _ => none) .granted), .advance]
    ∃ s₀ s s₁ s₂ s₃, Session.new m .unlimited = .ok s₀ ∧ s₀.follow? es = some s ∧
      s.hasPassed = true ∧ s.next? (.call .pause) = some s₁ ∧
      s₁.follow? [.advance] = some s₂ ∧ s₁.tally callsCycle [.advance] = 1 ∧
      s₁.tally callsCycle [.advance] ≤ s.hasPassed.toNat ∧
      s.next? (.call .cancel) = some s₃ ∧
      s₃.Completes (s.delivered.toList ++ s.closing) := by
  intro config rule m es
  have hi : m.isInitialized = true := by decide
  clear_value m
  let s₀ : Session Int Int := ⟨some m, none, ⟨false, false, .unlimited⟩, false, .ready, #[]⟩
  have hnew : Session.new m .unlimited = .ok s₀ := if_pos hi
  have hfollow : s₀.follow? es = some _ := rfl
  obtain ⟨hpause, hcancel⟩ := interrupted_after_new hnew hfollow
  refine ⟨s₀, _, _, _, _, hnew, hfollow, rfl, rfl, rfl, rfl, ?_, rfl, ?_⟩
  · exact hpause _ [.advance] _ rfl rfl (by simp [Event.Resumes])
  · exact (hcancel (.call .cancel) _ [] _ trivial rfl rfl).2.1 rfl

end Session

end TapeMachine
