import TapeMachine.Proofs.Session.Ending
import TapeMachine.Proofs.Session.Invariants
import TapeMachine.Proofs.Session.Stream

/-!
# Calls that wait

A join is refused where it would wait for a worker that a closed gate stops. Whatever call waits, the gate is
open then, and it stays open, since only the handle can close it and the handle is the one that waits
(`Session.isHeld_of_waiting`). So the worker always has a next step, and a join comes back as soon as the
worker has ended: soon after a cancellation (`Session.joinsWithin_cancel`), and after the session is resumed
as soon as the run has come to its end (`Session.joinsWithin_resume`).
-/

namespace TapeMachine

variable {σ α : Type} [DecidableEq σ] [DecidableEq α] [Quoted σ] [Quoted α]

/-- The most steps that a worker takes past an open gate, if its run goes on for so many cycles more at
most. -/
def Phase.stepsWithin (phase : Phase σ α) (cycles : Nat) : Nat :=
  match phase with
  | .gate => 5 * cycles + 4
  | .cycle => 5 * cycles + 3
  | .notify snapshot => if snapshot.isTerminal then 2 else 5 * cycles + 7
  | .observing last _ => if last then 1 else 5 * cycles + 6
  | .throttle => 5 * cycles + 5

omit [DecidableEq σ] [DecidableEq α] [Quoted σ] [Quoted α] in
theorem Phase.stepsWithin_bounds (phase : Phase σ α) (cycles : Nat) :
    0 < phase.stepsWithin cycles ∧ phase.stepsWithin cycles ≤ 5 * cycles + 7 := by
  cases phase with
  | gate => simp [stepsWithin]
  | cycle => simp [stepsWithin]
  | notify snapshot =>
    simp only [stepsWithin]
    split <;> omega
  | observing last ending =>
    simp only [stepsWithin]
    split <;> omega
  | throttle => simp [stepsWithin]

namespace Session

/-! ## The gate during a wait -/

/-- No call waits at a closed gate. -/
def WaitsOpen (s : Session σ α) : Prop :=
  ∀ request, s.handle = .waiting request → s.controls.isHeld = false

theorem WaitsOpen.next? {s s' : Session σ α} {e : Event σ α} (h : s.WaitsOpen)
    (hnext : s.next? e = some s') : s'.WaitsOpen := by
  intro request hwaiting
  rcases waiting_of_next? hnext hwaiting with ⟨hwaits, hcontrols⟩ | ⟨-, -, hopen⟩
  · rw [hcontrols]
    exact h request hwaits
  · exact hopen

theorem isHeld_of_waiting {m : Machine σ α} {speed : Speed} {s₀ s : Session σ α}
    {es : List (Event σ α)} (hnew : Session.new m speed = .ok s₀)
    (hfollow : s₀.follow? es = some s) {request : Request} (hwaiting : s.handle = .waiting request) :
    s.controls.isHeld = false := by
  have hopen : s₀.WaitsOpen := by
    obtain ⟨-, rfl⟩ := new_eq_ok_iff.mp hnew
    intro request h
    cases h
  exact follow?_induction (P := fun _ s => s.WaitsOpen) hopen
    (fun _ _ _ _ _ h hnext => h.next? hnext) hfollow request hwaiting

/-! ## Observers that do not panic -/

/-- The observer has not panicked and never does. -/
structure Calm (s : Session σ α) : Prop where
  quiet : ∀ w, s.worker? = some (.alive w) → w.Quiet
  returning : ∀ w last p, s.worker? = some (.alive w) → w.phase ≠ .observing last (some p)
  unharmed : ∀ p, s.worker? ≠ some (.panicked p)

omit [DecidableEq σ] [DecidableEq α] [Quoted σ] [Quoted α] in
theorem Calm.of_alive {s : Session σ α} {w : Worker σ α} (hw : s.worker? = some (.alive w))
    (hquiet : w.Quiet) (hreturning : ∀ last p, w.phase ≠ .observing last (some p)) : s.Calm where
  quiet w' hw' := by
    cases hw.symm.trans hw'
    exact hquiet
  returning w' last p hw' := by
    cases hw.symm.trans hw'
    exact hreturning last p
  unharmed p hp := by
    cases hw.symm.trans hp

theorem Calm.advance {s s' : Session σ α} (h : s.Calm) (hnext : s.advance = some s') : s'.Calm := by
  obtain ⟨w, hw, hadvance⟩ := advance_cases hnext
  have hquiet := h.quiet w hw
  cases hadvance with
  | stop hgate => exact .of_alive rfl hquiet (by simp)
  | pass hgate => exact .of_alive rfl hquiet (by simp)
  | cycle hcycle => exact .of_alive rfl hquiet (by simp)
  | notify hnotify =>
    refine .of_alive rfl hquiet fun last p hphase => ?_
    rw [hquiet] at hphase
    cases hphase
  | panic hobserving => exact absurd hobserving (h.returning w _ _ hw)
  | finish hobserving => exact ⟨by simp, by simp, by simp⟩
  | sleep hobserving => exact .of_alive rfl hquiet (by simp)
  | wake hthrottle => exact .of_alive rfl hquiet (by simp)

omit [DecidableEq σ] [DecidableEq α] [Quoted σ] [Quoted α] in
/-- A worker that has ended without a panic is collected. -/
theorem Calm.conclude_join {s : Session σ α} (h : s.Calm) : (s.conclude .join).2 = .ok none := by
  rw [Session.conclude_join]
  cases hw : s.worker? with
  | none => rw [collect_of_none hw]; rfl
  | some t =>
    cases t with
    | alive w => rw [collect_of_alive hw]; rfl
    | finished m => rw [collect_of_finished hw]; rfl
    | panicked p => exact absurd hw (h.unharmed p)

omit [DecidableEq σ] [DecidableEq α] [Quoted σ] [Quoted α] in
/-- Its machine is back with the handle then. -/
theorem Calm.exists_machine {s : Session σ α} (h : s.Calm) (hended : s.isRunning = false)
    (hworker : s.worker? ≠ none) : ∃ m, (s.conclude .join).1.machine? = some m := by
  rw [Session.conclude_join]
  cases hw : s.worker? with
  | none => exact absurd hw hworker
  | some t =>
    cases t with
    | alive w =>
      rw [isRunning, hw] at hended
      cases hended
    | finished m => exact ⟨m, by rw [collect_of_finished hw]⟩
    | panicked p => exact absurd hw (h.unharmed p)

omit [DecidableEq σ] [DecidableEq α] [Quoted σ] [Quoted α] in
/-- A worker that has ended is gone once it is collected, also after a panic. -/
theorem worker?_conclude_join {s : Session σ α} (hended : s.isRunning = false) :
    (s.conclude .join).1.worker? = none := by
  rw [worker?_conclude]
  cases hw : s.worker? with
  | none => rw [collect_of_none hw, hw]
  | some t =>
    cases t with
    | alive w =>
      rw [isRunning, hw] at hended
      cases hended
    | finished m => rw [collect_of_finished hw]
    | panicked p => rw [collect_of_panicked hw]

theorem worker?_ne_none_of_advance {s s' : Session σ α} (h : s.advance = some s') :
    s'.worker? ≠ none := by
  obtain ⟨w, hw, hadvance⟩ := advance_cases h
  cases hadvance <;> exact Option.some_ne_none _

/-! ## Joins that come back -/

/-- A join that is made now comes back with an answer, after so many steps of the worker. -/
inductive Joins (s : Session σ α) :
    (steps : Nat) → Session σ α → Except Fault (Option (Machine σ α)) → Prop
  | atOnce {s' : Session σ α} {answer : Except Fault (Option (Machine σ α))} :
      s.request .join = (s', some answer) → Joins s 0 s' answer
  | waited {s₁ s₂ s' : Session σ α} {steps : Nat} : s.request .join = (s₁, none) →
      s₁.follow? (List.replicate steps .advance) = some s₂ → s₂.next? .conclude = some s' →
      Joins s steps s' (s₂.conclude .join).2

/-- A join that is made now comes back within so many steps of the worker, and the worker is collected
then. It is not refused, and unless the observer panics or has panicked it succeeds; if there was a worker, the
handle has the machine back. -/
def JoinsWithin (s : Session σ α) (steps : Nat) : Prop :=
  ∃ k ≤ steps, ∃ s' answer, s.Joins k s' answer ∧ s'.worker? = none ∧ answer ≠ .error .busy ∧
    ((∀ w, s.worker? = some (.alive w) → w.Quiet) → (∀ p, s.worker? ≠ some (.panicked p)) →
      answer = .ok none ∧ (s.worker? ≠ none → ∃ m, s'.machine? = some m))

omit [DecidableEq σ] [DecidableEq α] [Quoted σ] [Quoted α] in
/-- A join that has waited is not refused. -/
theorem conclude_join_ne_busy (s : Session σ α) : (s.conclude .join).2 ≠ .error .busy := by
  rw [conclude_join]
  cases hw : s.worker? with
  | none => rw [collect_of_none hw]; simp [Except.map]
  | some t =>
    cases t with
    | alive w => rw [collect_of_alive hw]; simp [Except.map]
    | finished m => rw [collect_of_finished hw]; simp [Except.map]
    | panicked p => rw [collect_of_panicked hw]; simp [Except.map]

/-- A join past an open gate comes back if the worker ends by itself. -/
theorem joinsWithin_of_ends {P : Nat → Session σ α → Prop} {s : Session σ α} {n : Nat}
    (hstep : ∀ n s, P n s → s.isRunning = true → ∃ s', s.advance = some s' ∧ ∃ n' < n, P n' s')
    (hP : P n { s with handle := .waiting .join }) (hopen : s.controls.isHeld = false)
    (hobserving : s.Observing) : s.JoinsWithin n := by
  -- what is said of the answer holds if no panic is to come
  have hcalm : (∀ w, s.worker? = some (.alive w) → w.Quiet) →
      (∀ p, s.worker? ≠ some (.panicked p)) → s.Calm := by
    intro hquiet hunharmed
    refine ⟨hquiet, ?_, hunharmed⟩
    intro w last p hw hphase
    obtain ⟨snapshot, -, -, hending⟩ := hobserving w last (some p) hw hphase
    cases hending.trans (hquiet w hw _ _)
  rcases s.request_cases .join with ⟨-, -, hheld, -⟩ | ⟨-, -, hwaits⟩ | ⟨hended, hanswer⟩
  · cases hheld.symm.trans hopen
  · -- the worker is neither harmed nor gone before it has ended
    obtain ⟨k, hk, s₂, hfollow, hended, hhandle, n', -, hcalm₂, hworker₂⟩ :=
      ends_within (s := { s with handle := .waiting .join })
        (P := fun n t => P n t ∧ (s.Calm → t.Calm) ∧ (s.worker? ≠ none → t.worker? ≠ none))
        (fun n t ht hrunning => by
          obtain ⟨t', hadvance, n', hn', ht'⟩ := hstep n t ht.1 hrunning
          exact ⟨t', hadvance, n', hn', ht', fun h => (ht.2.1 h).advance hadvance,
            fun _ => worker?_ne_none_of_advance hadvance⟩)
        ⟨hP, fun h => ⟨h.quiet, h.returning, h.unharmed⟩, id⟩
    have hconclude : s₂.next? .conclude = some (s₂.conclude .join).1 :=
      next?_conclude_eq_some_iff.mpr ⟨.join, hhandle, hended, rfl⟩
    refine ⟨k, hk, _, _, .waited hwaits hfollow hconclude, worker?_conclude_join hended,
      conclude_join_ne_busy s₂, fun hquiet hunharmed => ?_⟩
    have hcalm₂ := hcalm₂ (hcalm hquiet hunharmed)
    exact ⟨hcalm₂.conclude_join, fun hworker => hcalm₂.exists_machine hended (hworker₂ hworker)⟩
  · refine ⟨0, Nat.zero_le n, _, _, .atOnce hanswer, worker?_conclude_join hended,
      conclude_join_ne_busy _, fun hquiet hunharmed => ?_⟩
    have hcalm := hcalm hquiet hunharmed
    exact ⟨hcalm.conclude_join, hcalm.exists_machine hended⟩

/-! ## Runs that come to their end -/

theorem Advance.stepsWithin_lt {s s' : Session σ α} {w w' : Worker σ α} {cycles : Nat}
    (h : s.Advance w s') (hends : ¬w.machine.GoesOn (cycles + 1))
    (hw' : s'.worker? = some (.alive w')) :
    ∃ cycles', ¬w'.machine.GoesOn (cycles' + 1) ∧
      w'.phase.stepsWithin cycles' < w.phase.stepsWithin cycles := by
  cases h with
  | stop hgate =>
    cases hw'
    refine ⟨cycles, hends, ?_⟩
    rw [hgate]
    show 2 < 5 * cycles + 4
    omega
  | pass hgate =>
    cases hw'
    refine ⟨cycles, hends, ?_⟩
    rw [hgate]
    exact Nat.lt_succ_self _
  | cycle hcycle =>
    cases hw'
    rw [hcycle]
    by_cases hgoes : ∃ id, w.machine.step.2 = .ok (.running id)
    · -- one cycle less is left
      obtain ⟨id, hid⟩ := hgoes
      have hrest : ¬w.machine.step.1.GoesOn cycles := fun hrest =>
        hends (Machine.goesOn_succ'.mpr ⟨⟨id, hid⟩, hrest⟩)
      cases cycles with
      | zero => exact absurd (fun k hk => absurd hk (Nat.not_lt_zero k)) hrest
      | succ cycles =>
        refine ⟨cycles, hrest, ?_⟩
        rw [hid]
        show 5 * cycles + 7 < 5 * (cycles + 1) + 3
        omega
    · refine ⟨0, Machine.not_goesOn_of_stops hgoes, ?_⟩
      have hlast : (cycleSnapshot w.machine.step.1 w.machine.step.2).isTerminal = true := by
        cases hstep : w.machine.step.2 with
        | error f => rfl
        | ok progress =>
          cases progress with
          | halted => rfl
          | running id => exact absurd ⟨id, hstep⟩ hgoes
      simp only [Phase.stepsWithin, hlast, if_true]
      omega
  | notify hnotify =>
    cases hw'
    refine ⟨cycles, hends, ?_⟩
    rw [hnotify]
    simp only [Phase.stepsWithin]
    split <;> omega
  | panic hobserving => cases hw'
  | finish hobserving => cases hw'
  | sleep hobserving =>
    cases hw'
    refine ⟨cycles, hends, ?_⟩
    rw [hobserving]
    exact Nat.lt_succ_self _
  | wake hthrottle =>
    cases hw'
    refine ⟨cycles, hends, ?_⟩
    rw [hthrottle]
    exact Nat.lt_succ_self _

/-- The gate is open, and the worker has so many steps left at most. -/
structure Expiring (n : Nat) (s : Session σ α) : Prop where
  opened : s.controls.paused = false
  left : ∀ w, s.worker? = some (.alive w) →
    ∃ cycles, ¬w.machine.GoesOn (cycles + 1) ∧ w.phase.stepsWithin cycles ≤ n

theorem Expiring.exists_advance {n : Nat} {s : Session σ α} (h : s.Expiring n)
    (hrunning : s.isRunning = true) : ∃ s', s.advance = some s' ∧ ∃ n' < n, s'.Expiring n' := by
  have hheld : s.controls.isHeld = false := by
    rw [Controls.isHeld, h.opened, Bool.false_and]
  obtain ⟨s', hs'⟩ := Session.exists_advance hrunning hheld
  obtain ⟨w, hw, hadvance⟩ := advance_cases hs'
  obtain ⟨cycles, hends, hle⟩ := h.left w hw
  have hpos := (w.phase.stepsWithin_bounds cycles).1
  refine ⟨s', hs', n - 1, by omega, ⟨by rw [controls_of_advance hs', h.opened], ?_⟩⟩
  intro w' hw'
  obtain ⟨cycles', hends', hlt⟩ := hadvance.stepsWithin_lt hends hw'
  exact ⟨cycles', hends', by omega⟩

/-! ## Joins after the gate has been opened -/

theorem joinsWithin_cancel {s : Session σ α} (hobserving : s.Observing) : s.cancel.JoinsWithin 7 := by
  refine joinsWithin_of_ends (P := Closing) (fun _ _ h => h.exists_advance) ?_ ?_ hobserving
  · exact ⟨rfl, fun w _ => w.phase.stepsLeft_bounds.2⟩
  · exact Bool.and_false _

theorem joinsWithin_resume {s : Session σ α} (hobserving : s.Observing) {cycles : Nat}
    (hends : ∀ w, s.worker? = some (.alive w) → ¬w.machine.GoesOn (cycles + 1)) :
    s.resume.JoinsWithin (5 * cycles + 7) := by
  refine joinsWithin_of_ends (P := Expiring) (fun _ _ h => h.exists_advance) ?_ ?_ hobserving
  · exact ⟨rfl, fun w hw => ⟨cycles, hends w hw, (w.phase.stepsWithin_bounds cycles).2⟩⟩
  · rfl

omit [DecidableEq σ] [DecidableEq α] [Quoted σ] [Quoted α] in
theorem request_join_refused_iff {s : Session σ α} :
    (s.request .join).2 = some (.error .busy) ↔
      s.isRunning = true ∧ s.controls.paused = true ∧ s.controls.cancelled = false := by
  have hheld : s.controls.isHeld = true ↔
      s.controls.paused = true ∧ s.controls.cancelled = false := by
    simp [Controls.isHeld]
  rw [← hheld]
  rcases s.request_cases .join with ⟨-, hrunning, hclosed, hs⟩ | ⟨-, hopen, hs⟩ | ⟨hended, hs⟩
  · rw [hs]
    exact ⟨fun _ => ⟨hrunning, hclosed⟩, fun _ => rfl⟩
  · rw [hs]
    refine ⟨fun h => (by cases h), fun h => ?_⟩
    cases hopen.symm.trans h.2
  · rw [hs]
    refine ⟨fun h => absurd (Option.some.inj h) (conclude_join_ne_busy _), fun h => ?_⟩
    cases hended.symm.trans h.1

omit [DecidableEq σ] [DecidableEq α] [Quoted σ] [Quoted α] in
theorem request_join_of_refused {s : Session σ α}
    (h : (s.request .join).2 = some (.error .busy)) : (s.request .join).1 = s := by
  rcases s.request_cases .join with ⟨-, -, -, hs⟩ | ⟨-, -, hs⟩ | ⟨-, hs⟩
  · rw [hs]
  · rw [hs] at h
    cases h
  · rw [hs] at h
    exact absurd (Option.some.inj h) (conclude_join_ne_busy _)

/-- A join is refused exactly while a closed gate stops a worker that is alive, which it leaves as it is; after
a cancellation it comes back, and so it does after the session is resumed if the run has an end. Whatever call
waits for the worker, the gate is open, so that the worker can go on at all times of the wait; only the handle
closes it. -/
theorem joins_after_new {m : Machine σ α} {speed : Speed} {s₀ s : Session σ α}
    {es : List (Event σ α)} (hnew : Session.new m speed = .ok s₀)
    (hfollow : s₀.follow? es = some s) :
    ((s.request .join).2 = some (.error .busy) ↔
      s.isRunning = true ∧ s.controls.paused = true ∧ s.controls.cancelled = false) ∧
    (s.conclude .join).2 ≠ .error .busy ∧
    ((s.request .join).2 = some (.error .busy) → (s.request .join).1 = s) ∧
    s.cancel.JoinsWithin 7 ∧
    (∀ cycles, (∀ w, s.worker? = some (.alive w) → ¬w.machine.GoesOn (cycles + 1)) →
      s.resume.JoinsWithin (5 * cycles + 7)) ∧
    (∀ request, s.handle = .waiting request → s.controls.isHeld = false ∧
      (s.isRunning = true → ∃ s', s.next? .advance = some s')) ∧
    ∀ e s', s.next? e = some s' → s.controls.paused = false → s'.controls.paused = true →
      e = .call .pause := by
  have hobserving : s.Observing := observing_of_new hnew hfollow
  refine ⟨request_join_refused_iff, conclude_join_ne_busy s, request_join_of_refused,
    joinsWithin_cancel hobserving, fun cycles hends => joinsWithin_resume hobserving hends, ?_, ?_⟩
  · intro request hwaiting
    have hopen := isHeld_of_waiting hnew hfollow hwaiting
    exact ⟨hopen, fun hrunning => exists_advance hrunning hopen⟩
  · intro e s' hnext hopen hclosed
    rcases paused_of_next? hnext with hsame | ⟨hpause, -⟩ | ⟨-, hopened⟩
    · cases hopen.symm.trans (hsame.symm.trans hclosed)
    · exact hpause
    · cases hopened.symm.trans hclosed

/-- A worker at the closed gate of a session: a join is refused, and comes back once it is resumed, since
the machine halts in its second cycle. -/
theorem joins_after_new_refused :
    let config : Config Int Int := ⟨0, 2, ⟨0, 9⟩, .consume⟩
    let rules : List (Rule Int Int) :=
      [⟨⟨0, [0], [0]⟩, [5], [9], [.stay], 1⟩, ⟨⟨1, [5], [0]⟩, [9], [9], [.stay], 2⟩]
    let m := (Machine.new config).after
      ([.addTape [], .addStack []] ++ rules.map .addAction ++ [.init])
    let es := [.call .pause, .call (.start (fun _ _ => none) .granted)]
    ∃ s₀ s, Session.new m .unlimited = .ok s₀ ∧ s₀.follow? es = some s ∧ ¬m.GoesOn 2 ∧
      (s.request .join).2 = some (.error .busy) ∧ (s.request .join).1 = s ∧
      s.resume.JoinsWithin 12 := by
  intro config rules m es
  have hi : m.isInitialized = true := by decide
  have hhalts : (m.stepped 1).step.2 = .ok .halted := by decide
  clear_value m
  have hends : ¬m.GoesOn 2 := by
    intro hgoes
    obtain ⟨id, hid⟩ := hgoes 1 (by decide)
    cases hhalts.symm.trans hid
  let s₀ : Session Int Int := ⟨some m, none, ⟨false, false, .unlimited⟩, false, .ready, #[]⟩
  have hnew : Session.new m .unlimited = .ok s₀ := if_pos hi
  have hfollow : s₀.follow? es = some _ := rfl
  obtain ⟨hrefused, -, hkept, -, hresume, -⟩ := joins_after_new hnew hfollow
  have hbusy := hrefused.mpr ⟨rfl, rfl, rfl⟩
  refine ⟨s₀, _, hnew, hfollow, hends, hbusy, hkept hbusy, hresume 1 ?_⟩
  rintro w ⟨⟩
  exact hends

end Session

end TapeMachine
