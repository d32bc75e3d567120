import TapeMachine.Proofs.Session.History

/-!
# How a worker ends

Only a closed gate can keep a worker from its next step (`Session.exists_advance`), and a cancellation
opens the gate for good. From then on each step brings the worker closer to its end
(`Session.Advance.stepsLeft_lt`), so it ends within seven steps (`Session.ends_of_cancelled`): the
longest way leads from a cycle past its snapshot to the gate, and from there past the last snapshot.
-/

namespace TapeMachine

variable {σ α : Type}

namespace Phase

/-- The most steps that a worker still takes once the session is cancelled. -/
def stepsLeft : Phase σ α → Nat
  | .gate => 3
  | .cycle => 7
  | .notify snapshot => if snapshot.isTerminal then 2 else 6
  | .observing last _ => if last then 1 else 5
  | .throttle => 4

theorem stepsLeft_bounds (phase : Phase σ α) : 0 < phase.stepsLeft ∧ phase.stepsLeft ≤ 7 := by
  cases phase with
  | gate => simp [stepsLeft]
  | cycle => simp [stepsLeft]
  | notify snapshot =>
    simp only [stepsLeft]
    split <;> simp
  | observing last ending =>
    simp only [stepsLeft]
    split <;> simp
  | throttle => simp [stepsLeft]

end Phase

namespace Session

variable [DecidableEq σ] [DecidableEq α] [Quoted σ] [Quoted α]

/-- A worker that is alive has a next step unless the gate holds it up. -/
theorem exists_advance {s : Session σ α} (hrunning : s.isRunning = true)
    (hheld : s.controls.isHeld = false) : ∃ s', s.advance = some s' := by
  obtain ⟨w, hw⟩ := exists_alive_of_isRunning hrunning
  simp only [advance, hw, advanceWorker]
  cases w.phase with
  | gate =>
    by_cases hcancelled : s.controls.cancelled = true
    · exact ⟨_, if_pos hcancelled⟩
    · have hopen : s.controls.paused = false := by
        simpa [Controls.isHeld, hcancelled] using hheld
      simp [hcancelled, hopen]
  | cycle => exact ⟨_, rfl⟩
  | notify snapshot => exact ⟨_, rfl⟩
  | observing last ending =>
    cases ending with
    | some p => exact ⟨_, rfl⟩
    | none => cases last <;> exact ⟨_, rfl⟩
  | throttle => exact ⟨_, rfl⟩

theorem Advance.stepsLeft_lt {s s' : Session σ α} {w w' : Worker σ α} (h : s.Advance w s')
    (hcancelled : s.controls.cancelled = true) (hw' : s'.worker? = some (.alive w')) :
    w'.phase.stepsLeft < w.phase.stepsLeft := by
  cases h with
  | stop hgate =>
    cases hw'
    rw [hgate]
    show 2 < 3
    decide
  | pass hgate hopen => cases hopen.symm.trans hcancelled
  | cycle hcycle =>
    cases hw'
    rw [hcycle]
    -- the snapshot may be the last one or not
    simp only [Phase.stepsLeft]
    split <;> decide
  | notify hnotify =>
    cases hw'
    rw [hnotify]
    simp only [Phase.stepsLeft]
    split <;> decide
  | panic hobserving => cases hw'
  | finish hobserving => cases hw'
  | sleep hobserving =>
    cases hw'
    rw [hobserving]
    show 4 < 5
    decide
  | wake hthrottle =>
    cases hw'
    rw [hthrottle]
    show 3 < 4
    decide

/-- A worker that has a next step as long as it is alive, with fewer steps left after each, ends. -/
theorem ends_within {P : Nat → Session σ α → Prop}
    (hstep : ∀ n s, P n s → s.isRunning = true → ∃ s', s.advance = some s' ∧ ∃ n' < n, P n' s')
    {s : Session σ α} {n : Nat} (h : P n s) :
    ∃ k ≤ n, ∃ s', s.follow? (List.replicate k .advance) = some s' ∧ s'.isRunning = false ∧
      s'.handle = s.handle ∧ ∃ n', P n' s' := by
  induction n using Nat.strongRecOn generalizing s with
  | ind n ih =>
    cases hrunning : s.isRunning with
    | false => exact ⟨0, Nat.zero_le n, s, rfl, hrunning, rfl, n, h⟩
    | true =>
      obtain ⟨s₁, hs₁, n', hn', h₁⟩ := hstep n s h hrunning
      obtain ⟨k, hk, s', hfollow, hended, hhandle, hP⟩ := ih n' hn' h₁
      refine ⟨k + 1, by omega, s', ?_, hended, hhandle.trans (handle_of_advance hs₁), hP⟩
      show s.advance.bind (fun s' => s'.follow? (List.replicate k .advance)) = some s'
      rw [hs₁]
      exact hfollow

/-- The session is cancelled, and its worker has so many steps left at most. -/
structure Closing (n : Nat) (s : Session σ α) : Prop where
  cancelled : s.controls.cancelled = true
  left : ∀ w, s.worker? = some (.alive w) → w.phase.stepsLeft ≤ n

theorem Closing.exists_advance {n : Nat} {s : Session σ α} (h : s.Closing n)
    (hrunning : s.isRunning = true) : ∃ s', s.advance = some s' ∧ ∃ n' < n, s'.Closing n' := by
  have hheld : s.controls.isHeld = false := by
    rw [Controls.isHeld, h.cancelled, Bool.not_true, Bool.and_false]
  obtain ⟨s', hs'⟩ := Session.exists_advance hrunning hheld
  obtain ⟨w, hw, hadvance⟩ := advance_cases hs'
  have hle := h.left w hw
  have hpos := w.phase.stepsLeft_bounds.1
  refine ⟨s', hs', n - 1, by omega, ⟨by rw [controls_of_advance hs', h.cancelled], ?_⟩⟩
  intro w' hw'
  have hlt := hadvance.stepsLeft_lt h.cancelled hw'
  omega

/-- Within seven steps of its own, whatever it is doing. -/
theorem ends_of_cancelled {s : Session σ α} (hcancelled : s.controls.cancelled = true) :
    ∃ k ≤ 7, ∃ s', s.follow? (List.replicate k .advance) = some s' ∧ s'.isRunning = false ∧
      s'.handle = s.handle := by
  have hclosing : s.Closing 7 := ⟨hcancelled, fun w _ => w.phase.stepsLeft_bounds.2⟩
  obtain ⟨k, hk, s', hfollow, hended, hhandle, -⟩ :=
    ends_within (P := Closing) (fun _ _ h => h.exists_advance) hclosing
  exact ⟨k, hk, s', hfollow, hended, hhandle⟩

end Session

end TapeMachine
