import TapeMachine.Proofs.Machine.Operation
import TapeMachine.Proofs.Session.Ending

/-!
# The owner of the machine

A session has one machine, which the handle and its worker hand to each other. As long as the system
refuses no worker, it is at one place at every time of every history (`Session.Placed`): with the
handle, with the one worker, alive or ended, or lost to a panic. There it is the machine that the
session was made for after the cycles that were counted, so none is lost, run twice or run on a copy.

A call that asks for the machine back gets it: at once if no worker is alive, and otherwise once the
worker has ended, which takes seven steps at most after it is told to (`Session.ends_of_cancelled`).
-/

namespace TapeMachine

variable {σ α : Type}

/-- The machine that a worker has. -/
def Thread.machine? : Thread σ α → Option (Machine σ α)
  | .alive w => some w.machine
  | .finished m => some m
  | .panicked _ => none

/-- Tells that the system does not refuse a worker. -/
def Event.Granted : Event σ α → Prop
  | .call (.start _ (.refused _)) => False
  | _ => True

namespace Session

/-! ## The events that count -/

/-- Tells that the machine runs a cycle: the worker's, or one by hand that gets at the machine. -/
def runsCycle (s : Session σ α) : Event σ α → Bool
  | .advance => (s.phase? matches some .cycle)
  | .call .step => s.collect.1.machine?.isSome
  | _ => false

/-- Tells that a worker is made. -/
def makesWorker (s : Session σ α) : Event σ α → Bool
  | .call (.start observer spawn) => (s.start observer spawn).2.isOk
  | _ => false

/-- Tells that a panic of the observer ends the worker. -/
def losesMachine (s : Session σ α) : Event σ α → Bool
  | .advance => (s.phase? matches some (.observing _ (some _)))
  | _ => false

/-! ## Where the machine is -/

/-- The handle has the machine, and there is no worker. -/
def Holds (s : Session σ α) (m : Machine σ α) : Prop :=
  s.machine? = some m ∧ s.worker? = none

/-- The handle has no machine, but a worker that it has not collected does. -/
def Lends (s : Session σ α) (m : Machine σ α) : Prop :=
  s.machine? = none ∧ ∃ t, s.worker? = some t ∧ t.machine? = some m

/-- Neither the handle nor a worker has a machine. -/
def Lost (s : Session σ α) : Prop :=
  s.machine? = none ∧ ∀ t, s.worker? = some t → t.machine? = none

theorem Holds.not_lends {s : Session σ α} {m m' : Machine σ α} (h : s.Holds m) : ¬s.Lends m' := by
  intro hl
  cases h.1.symm.trans hl.1

theorem Holds.not_lost {s : Session σ α} {m : Machine σ α} (h : s.Holds m) : ¬s.Lost := by
  intro hl
  cases h.1.symm.trans hl.1

theorem Lends.not_lost {s : Session σ α} {m : Machine σ α} (h : s.Lends m) : ¬s.Lost := by
  obtain ⟨-, t, ht, hm⟩ := h
  intro hl
  cases hm.symm.trans (hl.2 t ht)

/-- The places of the machine, which is `m` by now, after so many panics. -/
inductive Placed (m : Machine σ α) : (panics : Nat) → Session σ α → Prop
  | held {s : Session σ α} : s.machine? = some m → s.worker? = none → Placed m 0 s
  | alive {s : Session σ α} {w : Worker σ α} : s.machine? = none → s.worker? = some (.alive w) →
      w.machine = m → Placed m 0 s
  | finished {s : Session σ α} : s.machine? = none → s.worker? = some (.finished m) → Placed m 0 s
  | panicked {s : Session σ α} {p : Panic} : s.machine? = none → s.worker? = some (.panicked p) →
      Placed m 1 s
  | lost {s : Session σ α} : s.machine? = none → s.worker? = none → Placed m 1 s

namespace Placed

variable {s s' : Session σ α} {m : Machine σ α} {panics : Nat}

theorem of_eq (h : Placed m panics s) (hm : s'.machine? = s.machine?)
    (hw : s'.worker? = s.worker?) : Placed m panics s' := by
  cases h with
  | held hmachine hworker => exact .held (hm.trans hmachine) (hw.trans hworker)
  | alive hmachine hworker h => exact .alive (hm.trans hmachine) (hw.trans hworker) h
  | finished hmachine hworker => exact .finished (hm.trans hmachine) (hw.trans hworker)
  | panicked hmachine hworker => exact .panicked (hm.trans hmachine) (hw.trans hworker)
  | lost hmachine hworker => exact .lost (hm.trans hmachine) (hw.trans hworker)

theorem collect (h : Placed m panics s) : Placed m panics s.collect.1 := by
  cases h with
  | held hmachine hworker =>
    rw [collect_of_none hworker]
    exact .held hmachine hworker
  | alive hmachine hworker h =>
    rw [collect_of_alive hworker]
    exact .alive hmachine hworker h
  | finished hmachine hworker =>
    rw [collect_of_finished hworker]
    exact .held rfl rfl
  | panicked hmachine hworker =>
    rw [collect_of_panicked hworker]
    exact .lost hmachine rfl
  | lost hmachine hworker =>
    rw [collect_of_none hworker]
    exact .lost hmachine hworker

theorem start (h : Placed m panics s) (observer : Observer σ α) :
    Placed m panics (s.start observer .granted).1 := by
  cases hs : s.started with
  | true =>
    rw [start_of_started hs]
    exact h
  | false =>
    cases hm : s.machine? with
    | none =>
      rw [start_of_machine?_none hm]
      exact h
    | some m' =>
      -- the handle has the machine, so there is no worker that it could be with
      rw [start_eq_ok_iff.mpr ⟨rfl, hs, m', hm, rfl⟩]
      cases h with
      | held hmachine hworker => exact .alive rfl rfl (Option.some.inj (hm.symm.trans hmachine))
      | alive hmachine => cases hm.symm.trans hmachine
      | finished hmachine => cases hm.symm.trans hmachine
      | panicked hmachine => cases hm.symm.trans hmachine
      | lost hmachine => cases hm.symm.trans hmachine

/-- A return that does not give the session up is that of a join. -/
theorem conclude (h : Placed m panics s) (request : Request)
    (hgone : (s.conclude request).1.handle ≠ .gone) :
    Placed m panics (s.conclude request).1 := by
  cases request with
  | join => exact h.collect.of_eq rfl rfl
  | intoMachine => exact absurd rfl hgone
  | drop => exact absurd rfl hgone

theorem prepare (h : Placed m panics s) (request : Request) :
    Placed m panics (s.prepare request) := by
  cases request with
  | join => exact h
  | intoMachine => exact h.of_eq rfl rfl
  | drop =>
    show Placed m panics (if s.worker?.isSome then s.cancel else s)
    split
    · exact h.of_eq rfl rfl
    · exact h

theorem request (h : Placed m panics s) (request : Request)
    (hgone : (s.request request).1.handle ≠ .gone) : Placed m panics (s.request request).1 := by
  unfold Session.request at hgone ⊢
  split
  · exact h
  · rename_i hfree
    simp only [if_neg hfree] at hgone ⊢
    split
    · exact (h.prepare request).of_eq rfl rfl
    · rename_i hrunning
      rw [if_neg hrunning] at hgone
      exact (h.prepare request).conclude request hgone

end Placed

/-! ## What an event does to the place -/

variable [DecidableEq σ] [DecidableEq α] [Quoted σ] [Quoted α]

namespace Placed

variable {s s' : Session σ α} {m : Machine σ α} {k panics : Nat}

theorem step (h : Placed (m.stepped k) panics s) :
    Placed (m.stepped (k + (s.runsCycle (.call .step)).toNat)) panics s.step.1 := by
  show Placed (m.stepped (k + (s.collect.1.machine?.isSome).toNat)) panics s.step.1
  cases h with
  | held hmachine hworker =>
    have hs := collect_of_none hworker
    rw [step_of_collect_some hs hmachine, hs, hmachine]
    exact .held rfl hworker
  | alive hmachine hworker h =>
    have hs := collect_of_alive hworker
    rw [step_of_collect_none hs hmachine, hs, hmachine]
    exact .alive hmachine hworker h
  | finished hmachine hworker =>
    have hs := collect_of_finished hworker
    rw [step_of_collect_some hs rfl, hs]
    exact .held rfl rfl
  | panicked hmachine hworker =>
    have hs := collect_of_panicked hworker
    rw [step_of_collect_error hs, hs, hmachine]
    exact .lost rfl rfl
  | lost hmachine hworker =>
    have hs := collect_of_none hworker
    rw [step_of_collect_none hs hmachine, hs, hmachine]
    exact .lost hmachine hworker

theorem advance (h : Placed (m.stepped k) panics s) (hnext : s.advance = some s') :
    Placed (m.stepped (k + (s.runsCycle .advance).toNat))
      (panics + (s.losesMachine .advance).toNat) s' := by
  obtain ⟨w, hw, hadvance⟩ := advance_cases hnext
  have hphase := phase?_of_alive hw
  -- there is no step but that of a worker that is alive
  cases h with
  | held hmachine hworker => cases hw.symm.trans hworker
  | finished hmachine hworker => cases hw.symm.trans hworker
  | panicked hmachine hworker => cases hw.symm.trans hworker
  | lost hmachine hworker => cases hw.symm.trans hworker
  | alive hmachine hworker h =>
    cases hw.symm.trans hworker
    simp only [runsCycle, losesMachine, hphase]
    cases hadvance with
    | stop hgate =>
      rw [hgate]
      exact .alive hmachine rfl h
    | pass hgate =>
      rw [hgate]
      exact .alive hmachine rfl h
    | cycle hcycle =>
      rw [hcycle]
      exact .alive hmachine rfl (congrArg (fun m => m.step.1) h)
    | notify hnotify =>
      rw [hnotify]
      exact .alive hmachine rfl h
    | panic hobserving =>
      rw [hobserving]
      exact .panicked hmachine rfl
    | finish hobserving =>
      rw [hobserving]
      exact .finished hmachine (h ▸ rfl)
    | sleep hobserving =>
      rw [hobserving]
      exact .alive hmachine rfl h
    | wake hthrottle =>
      rw [hthrottle]
      exact .alive hmachine rfl h

theorem called {call : Call σ α} (h : Placed (m.stepped k) panics s)
    (hgranted : (Event.call call).Granted) (hgone : (s.called call).handle ≠ .gone) :
    Placed (m.stepped (k + (s.runsCycle (.call call)).toNat)) panics (s.called call) := by
  cases call with
  | pause => exact h.of_eq rfl rfl
  | resume => exact h.of_eq rfl rfl
  | cancel => exact h.of_eq rfl rfl
  | setSpeed speed => exact h.of_eq rfl rfl
  | isPaused => exact h
  | isRunning => exact h
  | machine => exact h
  | start observer spawn =>
    cases spawn with
    | granted => exact h.start observer
    | refused reason => exact hgranted.elim
  | step => exact h.step
  | request request => exact h.request request hgone

/-- One event, unless it gives the session up. -/
theorem next? {e : Event σ α} (h : Placed (m.stepped k) panics s) (hgranted : e.Granted)
    (hnext : s.next? e = some s') (hgone : s'.handle ≠ .gone) :
    Placed (m.stepped (k + (s.runsCycle e).toNat)) (panics + (s.losesMachine e).toNat) s' := by
  cases e with
  | advance => exact h.advance hnext
  | call call =>
    obtain ⟨-, rfl⟩ := next?_call_eq_some_iff.mp hnext
    exact h.called hgranted hgone
  | conclude =>
    obtain ⟨request, -, -, rfl⟩ := next?_conclude_eq_some_iff.mp hnext
    exact h.conclude request hgone

end Placed

/-- Nothing happens to a session that has been given up. -/
theorem handle_of_next?_gone {s s' : Session σ α} {e : Event σ α} (h : s.next? e = some s')
    (hgone : s.handle = .gone) : s'.handle = .gone := by
  cases e with
  | advance => exact (handle_of_advance h).trans hgone
  | call call => simp [next?, hgone] at h
  | conclude => simp [next?, hgone] at h

theorem placed_follow? {m : Machine σ α} {s₀ s : Session σ α} {es : List (Event σ α)}
    (h : Placed m 0 s₀) (hgranted : ∀ e ∈ es, e.Granted) (hfollow : s₀.follow? es = some s)
    (hgone : s.handle ≠ .gone) :
    Placed (m.stepped (s₀.tally runsCycle es)) (s₀.tally losesMachine es) s := by
  refine follow?_induction (P := fun es s => (∀ e ∈ es, e.Granted) → s.handle ≠ .gone →
    Placed (m.stepped (s₀.tally runsCycle es)) (s₀.tally losesMachine es) s)
    (fun _ _ => h) ?_ hfollow hgranted hgone
  intro es s₁ s₂ e hs₁ ih hnext hgranted hgone
  -- a session that is given up stays so, hence it was not before
  have hbefore := ih (fun e' he' => hgranted e' (List.mem_append_left _ he'))
    (fun h => hgone (handle_of_next?_gone hnext h))
  rw [tally_concat hs₁, tally_concat hs₁]
  exact hbefore.next? (hgranted e (by simp)) hnext hgone

/-! ## One worker at most -/

/-- A worker is made once, at the start that succeeds. -/
theorem started_of_makesWorker {s s' : Session σ α} {e : Event σ α} (he : s.makesWorker e = true)
    (h : s.next? e = some s') : s.started = false ∧ s'.started = true := by
  unfold makesWorker at he
  split at he
  · rename_i observer spawn
    cases hanswer : (s.start observer spawn).2 with
    | error f =>
      rw [hanswer] at he
      cases he
    | ok u =>
      obtain ⟨-, hs, m, -, hafter⟩ := start_eq_ok_iff.mp (Prod.ext rfl hanswer)
      obtain ⟨-, rfl⟩ := next?_call_eq_some_iff.mp h
      exact ⟨hs, congrArg Session.started hafter⟩
  · cases he

theorem tally_makesWorker_le {s₀ s : Session σ α} {es : List (Event σ α)}
    (hfollow : s₀.follow? es = some s) : s₀.tally makesWorker es ≤ s.started.toNat := by
  refine follow?_induction (P := fun es s => s₀.tally makesWorker es ≤ s.started.toNat)
    (Nat.zero_le _) ?_ hfollow
  intro es s₁ s₂ e hs₁ ih hnext
  rw [tally_concat hs₁]
  cases he : s₁.makesWorker e with
  | true =>
    obtain ⟨hbefore, hafter⟩ := started_of_makesWorker he hnext
    rw [hbefore] at ih
    rw [hafter]
    exact Nat.add_le_add ih (Nat.le_refl 1)
  | false =>
    cases hs : s₁.started with
    | true =>
      rw [hs] at ih
      rw [started_of_next? hnext hs]
      exact ih
    | false =>
      rw [hs] at ih
      exact Nat.le_trans ih (Nat.zero_le _)

/-! ## What the calls come to -/

omit [DecidableEq σ] [DecidableEq α] [Quoted σ] [Quoted α] in
theorem request_intoMachine {s : Session σ α} (h : s.isRunning = false) :
    (s.request .intoMachine).2 = some (s.conclude .intoMachine).2 := by
  have hcancel : s.cancel.isRunning = false := h
  have hmachine : s.collect.1.cancel.machine? = s.collect.1.machine? := rfl
  simp [request, prepare, hcancel, conclude, collect_cancel, hmachine]

/-- What is sure of a session that has not been given up, with `m` the machine that it must have by
now. -/
structure Accounted (s : Session σ α) (m : Machine σ α) (panicked : Prop) : Prop where
  /-- The machine is at exactly one place. -/
  place :
    (s.Holds m ∧ ¬s.Lends m ∧ ¬s.Lost) ∨
      (¬s.Holds m ∧ s.Lends m ∧ ¬s.Lost) ∨ (¬s.Holds m ∧ ¬s.Lends m ∧ s.Lost)
  /-- There is no machine but this one. -/
  only : ∀ m', s.Holds m' ∨ s.Lends m' → m' = m
  /-- It is lost by a panic and by nothing else. -/
  lost_iff : s.Lost ↔ panicked
  /-- It is shown while the handle has it. -/
  shown : ∀ m', s.machine? = some m' ↔ s.Holds m'
  /-- A cycle by hand is refused while the worker is alive. -/
  busy : s.isRunning = true → s.step = (s, .error .busy)
  /-- A cycle by hand collects a worker that has ended and runs on its machine, once. -/
  reclaims : ∀ m', s.worker? = some (.finished m') →
    s.collect = ({ s with machine? := some m, worker? := none }, .ok ()) ∧
      s.step =
        ({ s with machine? := some m.step.1, worker? := none },
          m.step.2.map fun progress => cycleSnapshot m.step.1 (.ok progress))
  /-- Once no worker is alive, the machine is given away when it is asked for, -/
  gives : s.isRunning = false → ¬panicked →
    (s.request .intoMachine).2 = some (.ok (some m)) ∧
      (s.conclude .intoMachine).2 = .ok (some m)
  /-- unless it is lost. -/
  denies : panicked → ∃ f,
    (s.request .intoMachine).2 = some (.error f) ∧ (s.conclude .intoMachine).2 = .error f

namespace Placed

variable {s : Session σ α} {m : Machine σ α} {panics : Nat}

omit [DecidableEq σ] [DecidableEq α] [Quoted σ] [Quoted α]

theorem holds_or_lends_or_lost (h : Placed m panics s) :
    (panics = 0 ∧ s.Holds m) ∨ (panics = 0 ∧ s.Lends m) ∨ (panics = 1 ∧ s.Lost) := by
  cases h with
  | held hmachine hworker => exact .inl ⟨rfl, hmachine, hworker⟩
  | alive hmachine hworker h => exact .inr (.inl ⟨rfl, hmachine, _, hworker, congrArg some h⟩)
  | finished hmachine hworker => exact .inr (.inl ⟨rfl, hmachine, _, hworker, rfl⟩)
  | panicked hmachine hworker =>
    refine .inr (.inr ⟨rfl, hmachine, fun t ht => ?_⟩)
    cases hworker.symm.trans ht
    rfl
  | lost hmachine hworker =>
    refine .inr (.inr ⟨rfl, hmachine, fun t ht => ?_⟩)
    cases hworker.symm.trans ht

/-- The places exclude each other. -/
theorem place (h : Placed m panics s) :
    (s.Holds m ∧ ¬s.Lends m ∧ ¬s.Lost) ∨
      (¬s.Holds m ∧ s.Lends m ∧ ¬s.Lost) ∨ (¬s.Holds m ∧ ¬s.Lends m ∧ s.Lost) := by
  rcases h.holds_or_lends_or_lost with ⟨-, hs⟩ | ⟨-, hs⟩ | ⟨-, hs⟩
  · exact .inl ⟨hs, hs.not_lends, hs.not_lost⟩
  · exact .inr (.inl ⟨fun h => h.not_lends hs, hs, hs.not_lost⟩)
  · exact .inr (.inr ⟨fun h => h.not_lost hs, fun h => h.not_lost hs, hs⟩)

theorem only (h : Placed m panics s) {m' : Machine σ α} (hs : s.Holds m' ∨ s.Lends m') :
    m' = m := by
  cases h with
  | held hmachine hworker =>
    rcases hs with ⟨h, -⟩ | ⟨h, -⟩
    · exact Option.some.inj (h.symm.trans hmachine)
    · cases h.symm.trans hmachine
  | alive hmachine hworker heq =>
    rcases hs with ⟨h, -⟩ | ⟨-, t, ht, h⟩
    · cases h.symm.trans hmachine
    · cases ht.symm.trans hworker
      exact (Option.some.inj h).symm.trans heq
  | finished hmachine hworker =>
    rcases hs with ⟨h, -⟩ | ⟨-, t, ht, h⟩
    · cases h.symm.trans hmachine
    · cases ht.symm.trans hworker
      exact (Option.some.inj h).symm
  | panicked hmachine hworker =>
    rcases hs with ⟨h, -⟩ | ⟨-, t, ht, h⟩
    · cases h.symm.trans hmachine
    · cases ht.symm.trans hworker
      cases h
  | lost hmachine hworker =>
    rcases hs with ⟨h, -⟩ | ⟨-, t, ht, h⟩
    · cases h.symm.trans hmachine
    · cases ht.symm.trans hworker

theorem lost_iff (h : Placed m panics s) : s.Lost ↔ 0 < panics := by
  rcases h.holds_or_lends_or_lost with ⟨rfl, hs⟩ | ⟨rfl, hs⟩ | ⟨rfl, hs⟩
  · exact ⟨fun h => absurd h hs.not_lost, fun h => absurd h (by decide)⟩
  · exact ⟨fun h => absurd h hs.not_lost, fun h => absurd h (by decide)⟩
  · exact ⟨fun _ => by decide, fun _ => hs⟩

theorem machine?_eq_some_iff (h : Placed m panics s) (m' : Machine σ α) :
    s.machine? = some m' ↔ s.Holds m' := by
  refine ⟨fun hm => ⟨hm, ?_⟩, fun hs => hs.1⟩
  rcases h.holds_or_lends_or_lost with ⟨-, hs⟩ | ⟨-, hs⟩ | ⟨-, hs⟩
  · exact hs.2
  · cases hm.symm.trans hs.1
  · cases hm.symm.trans hs.1

theorem machine?_of_worker (h : Placed m panics s) {t : Thread σ α} (ht : s.worker? = some t) :
    s.machine? = none := by
  cases hm : s.machine? with
  | none => rfl
  | some m' => cases ht.symm.trans ((h.machine?_eq_some_iff m').mp hm).2

/-- The answer to a request for the machine, where no worker is alive. -/
theorem conclude_intoMachine (h : Placed m panics s) (hrunning : s.isRunning = false) :
    (panics = 0 ∧ (s.conclude .intoMachine).2 = .ok (some m)) ∨
      (panics = 1 ∧ ∃ f, (s.conclude .intoMachine).2 = .error f) := by
  cases h with
  | held hmachine hworker =>
    refine .inl ⟨rfl, ?_⟩
    simp only [Session.conclude, collect_of_none hworker, hmachine]
  | alive hmachine hworker h =>
    rw [isRunning_of_alive hworker] at hrunning
    cases hrunning
  | finished hmachine hworker =>
    refine .inl ⟨rfl, ?_⟩
    simp only [Session.conclude, collect_of_finished hworker]
  | panicked hmachine hworker =>
    rename_i p
    refine .inr ⟨rfl, .workerFailed p.reason, ?_⟩
    simp only [Session.conclude, collect_of_panicked hworker]
  | lost hmachine hworker =>
    refine .inr ⟨rfl, .busy, ?_⟩
    simp only [Session.conclude, collect_of_none hworker, hmachine]

theorem isRunning_of_panics (h : Placed m panics s) (hpanics : 0 < panics) :
    s.isRunning = false := by
  cases h with
  | held => cases hpanics
  | alive => cases hpanics
  | finished => cases hpanics
  | panicked hmachine hworker => rw [isRunning, hworker]
  | lost hmachine hworker => rw [isRunning, hworker]

end Placed

theorem Placed.accounted {s : Session σ α} {m : Machine σ α} {panics : Nat}
    (h : Placed m panics s) : s.Accounted m (0 < panics) where
  place := h.place
  only m' hs := h.only hs
  lost_iff := h.lost_iff
  shown m' := h.machine?_eq_some_iff m'
  busy hrunning := by
    obtain ⟨w, hw⟩ := exists_alive_of_isRunning hrunning
    exact step_of_collect_none (collect_of_alive hw) (h.machine?_of_worker hw)
  reclaims m' hw := by
    cases h.only (.inr ⟨h.machine?_of_worker hw, _, hw, rfl⟩)
    have hcollect := collect_of_finished hw
    exact ⟨hcollect, step_of_collect_some hcollect rfl⟩
  gives hrunning hpanics := by
    rw [request_intoMachine hrunning]
    rcases h.conclude_intoMachine hrunning with ⟨-, hanswer⟩ | ⟨rfl, -⟩
    · exact ⟨congrArg some hanswer, hanswer⟩
    · exact absurd (by decide) hpanics
  denies hpanics := by
    have hrunning := h.isRunning_of_panics hpanics
    rw [request_intoMachine hrunning]
    rcases h.conclude_intoMachine hrunning with ⟨rfl, -⟩ | ⟨-, f, hanswer⟩
    · exact absurd hpanics (by decide)
    · exact ⟨f, congrArg some hanswer, hanswer⟩

/-! ## Asking for the machine while the worker is alive -/

omit [DecidableEq σ] [DecidableEq α] [Quoted σ] [Quoted α] in
theorem request_intoMachine_of_isRunning {s : Session σ α} (h : s.isRunning = true) :
    s.request .intoMachine = ({ s.cancel with handle := .waiting .intoMachine }, none) := by
  have hcancel : s.cancel.isRunning = true := h
  simp [request, prepare, hcancel]

/-- A request for the machine that has to wait comes back. -/
theorem intoMachine_returns {s₀ s : Session σ α} {es : List (Event σ α)}
    (hfollow : s₀.follow? es = some s) (hready : s.handle = .ready)
    (hrunning : s.isRunning = true) :
    ∃ k ≤ 7, ∃ s',
      s₀.follow? (es ++ .call (.request .intoMachine) :: List.replicate k .advance) = some s' ∧
        s'.isRunning = false ∧ s'.handle = .waiting .intoMachine := by
  have hrequest := request_intoMachine_of_isRunning hrunning
  have hcancelled : (s.request .intoMachine).1.controls.cancelled = true := by
    rw [hrequest]
    rfl
  obtain ⟨k, hk, s', hends, hended, hhandle⟩ := ends_of_cancelled hcancelled
  refine ⟨k, hk, s', ?_, hended, hhandle.trans (by rw [hrequest])⟩
  rw [follow?_append, hfollow]
  show (s.next? (.call (.request .intoMachine))).bind _ = some s'
  rw [next?, if_pos hready]
  exact hends

omit [DecidableEq σ] [DecidableEq α] [Quoted σ] [Quoted α] in
theorem granted_intoMachine {es : List (Event σ α)} (h : ∀ e ∈ es, e.Granted) (k : Nat) :
    ∀ e ∈ es ++ .call (.request .intoMachine) :: List.replicate k .advance, e.Granted := by
  intro e he
  rcases List.mem_append.mp he with he | he
  · exact h e he
  · rcases List.mem_cons.mp he with rfl | he
    · exact trivial
    · rw [List.eq_of_mem_replicate he]
      exact trivial

/-- After every history in which no worker is refused, the machine is where it can be accounted for,
after the cycles that were run, and whoever asks for it gets it unless a panic has lost it. -/
theorem accounted_after_new {m : Machine σ α} {speed : Speed} {s₀ s : Session σ α}
    {es : List (Event σ α)} (hnew : Session.new m speed = .ok s₀)
    (hgranted : ∀ e ∈ es, e.Granted) (hfollow : s₀.follow? es = some s) :
    s₀.tally makesWorker es ≤ 1 ∧
      (s.handle ≠ .gone →
        s.Accounted (m.stepped (s₀.tally runsCycle es)) (0 < s₀.tally losesMachine es)) ∧
      (s.handle = .ready → s.isRunning = true → ∃ k ≤ 7, ∃ s',
        let es' := es ++ .call (.request .intoMachine) :: List.replicate k .advance
        s₀.follow? es' = some s' ∧ s'.isRunning = false ∧ s'.handle = .waiting .intoMachine ∧
          (s₀.tally losesMachine es' = 0 →
            (s'.conclude .intoMachine).2 = .ok (some (m.stepped (s₀.tally runsCycle es'))))) := by
  have hplaced : Placed m 0 s₀ := by
    unfold Session.new at hnew
    split at hnew
    · cases hnew
      exact .held rfl rfl
    · cases hnew
  refine ⟨Nat.le_trans (tally_makesWorker_le hfollow) (Bool.toNat_le _), fun hgone => ?_,
    fun hready hrunning => ?_⟩
  · exact (placed_follow? hplaced hgranted hfollow hgone).accounted
  · obtain ⟨k, hk, s', hfollow', hended, hwaiting⟩ := intoMachine_returns hfollow hready hrunning
    refine ⟨k, hk, s', hfollow', hended, hwaiting, fun hkept => ?_⟩
    -- the waiting session is one more history, to which all of the above applies
    have hgone : s'.handle ≠ .gone := by
      rw [hwaiting]
      simp
    have haccounted :=
      (placed_follow? hplaced (granted_intoMachine hgranted k) hfollow' hgone).accounted
    exact (haccounted.gives hended (Nat.not_lt_of_le (Nat.le_of_eq hkept))).2

/-- A worker that has run a cycle and is about to show it. -/
theorem accounted_after_new_cycle :
    let config : Config Int Int := ⟨0, 1, ⟨0, 9⟩, .consume⟩
    let rule : Rule Int Int := ⟨⟨0, [0], [0]⟩, [5], [7], [.left], 1⟩
    let m := (Machine.new config).after [.addTape [], .addStack [], .addAction rule, .init]
    let es := [.call (.start (fun _ _ => none) .granted), .advance, .advance]
    ∃ s₀ s, Session.new m .unlimited = .ok s₀ ∧ s₀.follow? es = some s ∧ s.isRunning = true ∧
      s₀.tally runsCycle es = 1 ∧ s₀.tally losesMachine es = 0 ∧
      s.Accounted (m.stepped 1) (0 < 0) := by
  intro config rule m es
  have hi : m.isInitialized = true := by decide
  clear_value m
  let s₀ : Session Int Int := ⟨some m, none, ⟨false, false, .unlimited⟩, false, .ready, #[]⟩
  have hnew : Session.new m .unlimited = .ok s₀ := if_pos hi
  have hgranted : ∀ e ∈ es, e.Granted := by
    simp [es, Event.Granted]
  refine ⟨s₀, _, hnew, rfl, rfl, rfl, rfl, ?_⟩
  exact (accounted_after_new hnew hgranted rfl).2.1 (fun hgone => by cases hgone)

end Session

end TapeMachine
