import TapeMachine.Proofs.Session.Observers
import TapeMachine.Proofs.Session.Ownership
import TapeMachine.Proofs.Session.Reports

/-!
# Observers that panic

A call of the observer that panics ends the worker, and the machine is lost with it. What has been shown by then is
what any other observer would have been shown first. The handle is told once: by the call that collects the
worker, unless that is the one which gives the session up (`Session.Announced`). Every other call finds a session
that has been started and has no machine (`Session.Contained`).
-/

namespace TapeMachine

variable {σ α : Type} [DecidableEq σ] [DecidableEq α] [Quoted σ] [Quoted α]

namespace Session

/-! ## The one report -/

/-- How often a session with the observer has reported a failure: not until the worker that has panicked is
collected, and then once, unless the session was given up. -/
inductive Announced (observer : Observer σ α) (es : List (Event σ α)) :
    (reports : Nat) → Session σ α → Prop
  | unharmed {s : Session σ α} : s.Unharmed observer → Announced observer es 0 s
  | pending {s : Session σ α} {t : Thread σ α} {p : Panic} : s.Stricken observer p →
      s.worker? = some t → Announced observer es 0 s
  | told {s : Session σ α} {p : Panic} : s.Stricken observer p → s.worker? = none →
      Announced observer es 1 s
  | dropped {s : Session σ α} {p : Panic} : s.Stricken observer p → s.worker? = none →
      .call (.request .drop) ∈ es → Announced observer es 0 s

namespace Announced

variable {observer : Observer σ α} {es : List (Event σ α)} {reports : Nat} {s s' : Session σ α}

theorem next? {e : Event σ α} (h : Announced observer es reports s)
    (hmachines : s.Every Machine.OnlyUnmatched) (hapart : s.Apart)
    (hwaiting : s.handle = .waiting .drop → .call (.request .drop) ∈ es)
    (hnext : s.next? e = some s') :
    Announced observer (es ++ [e]) (reports + (s.reportsFailure e).toNat) s' := by
  -- without a worker that has panicked, nothing is reported
  have hsilent (hstarted : s.started = true) (hunhurt : ∀ p, s.worker? ≠ some (.panicked p)) :
      s.reportsFailure e = false := by
    rw [Bool.eq_false_iff]
    intro he
    cases hstarted.symm.trans (start_of_reportsFailure hmachines hunhurt he).1
  cases h with
  | unharmed hunharmed =>
    rw [hsilent hunharmed.started hunharmed.unhurt]
    rcases hunharmed.next? hapart hnext with ⟨hunharmed', -⟩ | ⟨p, -, hstricken, hrunning, -, -⟩
    · exact .unharmed hunharmed'
    · obtain ⟨w, hw⟩ := exists_alive_of_isRunning hrunning
      exact .pending hstricken hw
  | told hstricken hworker =>
    rw [hsilent hstricken.started (by simp [hworker])]
    exact .told (hstricken.next? hnext).1 (Stranded.next? ⟨hstricken.machine, hworker⟩ hnext).2
  | dropped hstricken hworker hdrop =>
    rw [hsilent hstricken.started (by simp [hworker])]
    exact .dropped (hstricken.next? hnext).1 (Stranded.next? ⟨hstricken.machine, hworker⟩ hnext).2
      (List.mem_append_left _ hdrop)
  | pending hstricken hw =>
    have hstricken' := (hstricken.next? hnext).1
    have hlost := hstricken.lost _ hw
    rename_i t p
    cases t with
    | finished m => exact hlost.elim
    | alive w =>
      rw [hsilent hstricken.started (by simp [hw])]
      -- the worker is left alone or ends
      rcases next?_cases hnext with ⟨-, hadvance⟩ | ⟨-, hframe⟩
      · cases (hstricken.advance_eq hw).symm.trans hadvance
        exact .pending hstricken' rfl
      · exact .pending hstricken' ((hframe.alive hstricken.started w).mpr hw)
    | panicked p' =>
      cases hlost
      rcases reportsFailure_of_panicked hstricken.started hstricken.machine hw hnext with
        ⟨hfault, hworker⟩ | ⟨hquiet, hworker⟩ | ⟨hquiet, hworker, hdrop⟩
      · rw [reportsFailure_eq_true_iff.mpr ⟨_, hfault⟩]
        exact .told hstricken' hworker
      · rw [hquiet]
        exact .pending hstricken' hworker
      · rw [hquiet]
        refine .dropped hstricken' hworker ?_
        rcases hdrop with rfl | hdrop
        · exact List.mem_append_right _ (List.mem_singleton_self _)
        · exact List.mem_append_left _ (hwaiting hdrop)

end Announced

/-! ## What is waited for -/

section Start

variable {m : Machine σ α} {speed : Speed} {s₀ s₁ s₂ s : Session σ α} {before after : List (Event σ α)}
  {observer : Observer σ α}

end Start

/-! ## What a panic comes to -/

/-- Only the collection of the worker reports the panic. -/
theorem Stricken.reason {s s' : Session σ α} {observer : Observer σ α} {p : Panic} {e : Event σ α}
    (h : s.Stricken observer p) (hmachines : s.Every Machine.OnlyUnmatched)
    (hnext : s.next? e = some s') (he : s.reportsFailure e = true) :
    s.fault? e = some (.workerFailed p.reason) ∧ s.worker? = some (.panicked p) ∧
      s'.worker? = none := by
  by_cases hunhurt : ∀ p, s.worker? ≠ some (.panicked p)
  · cases h.started.symm.trans (start_of_reportsFailure hmachines hunhurt he).1
  · push Not at hunhurt
    obtain ⟨p', hw⟩ := hunhurt
    cases h.lost _ hw
    rcases reportsFailure_of_panicked h.started h.machine hw hnext with
      ⟨hfault, hworker⟩ | ⟨hquiet, -⟩ | ⟨hquiet, -⟩
    · exact ⟨hfault, hw, hworker⟩
    · cases hquiet.symm.trans he
    · cases hquiet.symm.trans he

section Start

variable {config : Config σ α} {ops : List (Operation σ α)} {speed : Speed} {s₀ s₁ s₂ s : Session σ α}
  {before after : List (Event σ α)} {observer : Observer σ α} {k : Nat}

end Start

end Session

end TapeMachine
