import TapeMachine.Proofs.Machine.Limits
import TapeMachine.Proofs.Session.Waiting

/-!
# Sessions that are left alone

A run without a limit ends with the first call for a cycle that does not go on
(`Machine.exists_run_eq_some_iff_stopsAt`). A session that is started and then left alone ends where that run
does, and until then it shows a snapshot of every call, the last one included
(`Session.delivered_of_settle`, `Session.exists_settle_underway`). How fast it goes changes nothing.

The steps in the snapshots are the numbers of the cycles, since only the last call can be one that applies no
action (`Machine.StopsAt.stepCounts_eq`).
-/

namespace TapeMachine

variable {σ α : Type} [DecidableEq σ] [DecidableEq α] [Quoted σ] [Quoted α]

namespace Machine

/-! ## Where a run stops -/

/-- The first `n` calls for a cycle go on, and the next one does not. -/
structure StopsAt (m : Machine σ α) (n : Nat) : Prop where
  goesOn : m.GoesOn n
  stops : ¬∃ id, (m.stepped n).step.2 = .ok (.running id)

/-- The snapshots of so many calls for a cycle, whatever they come to. -/
def snapshots (m : Machine σ α) (calls : Nat) : List (Snapshot σ α) :=
  (List.range calls).map fun k => cycleSnapshot (m.stepped (k + 1)) (m.stepped k).step.2

variable {m : Machine σ α} {n n' : Nat}

theorem StopsAt.unique (h : m.StopsAt n) (h' : m.StopsAt n') : n = n' := by
  rcases Nat.lt_trichotomy n n' with hlt | heq | hgt
  · exact absurd (h'.goesOn n hlt) h.stops
  · exact heq
  · exact absurd (h.goesOn n' hgt) h'.stops

theorem stopsAt_zero : m.StopsAt 0 ↔ ¬∃ id, m.step.2 = .ok (.running id) :=
  ⟨fun h => h.stops, fun h => ⟨fun k hk => absurd hk (Nat.not_lt_zero k), h⟩⟩

theorem stopsAt_succ :
    m.StopsAt (n + 1) ↔ (∃ id, m.step.2 = .ok (.running id)) ∧ m.step.1.StopsAt n := by
  constructor
  · rintro ⟨hgoes, hstops⟩
    obtain ⟨hfirst, hrest⟩ := goesOn_succ'.mp hgoes
    rw [stepped_succ'] at hstops
    exact ⟨hfirst, hrest, hstops⟩
  · rintro ⟨hfirst, hrest, hstops⟩
    rw [← stepped_succ'] at hstops
    exact ⟨goesOn_succ'.mpr ⟨hfirst, hrest⟩, hstops⟩

theorem run_succ_of_running (h : ∃ id, m.step.2 = .ok (.running id)) (fuel : Nat) :
    m.run (fuel + 1) = m.step.1.run fuel := by
  obtain ⟨id, hid⟩ := h
  have hstep : m.step = (m.step.1, .ok (.running id)) := Prod.ext rfl hid
  rw [run, hstep]

theorem run_succ_of_stops (h : ¬∃ id, m.step.2 = .ok (.running id)) (fuel : Nat) :
    m.run (fuel + 1) = some (m.concluded ()) := by
  rw [run, concluded]
  rcases hstep : m.step with ⟨m', f | _ | id⟩
  · rfl
  · exact absurd ⟨_, congrArg Prod.snd hstep⟩ h
  · rfl

/-- A run is over with the first call that does not go on. -/
theorem exists_run_eq_some_iff_stopsAt {result : Machine σ α × Except Fault Unit} :
    (∃ fuel, m.run fuel = some result) ↔
      ∃ n, m.StopsAt n ∧ result = (m.stepped n).concluded () := by
  constructor
  · rintro ⟨fuel, hrun⟩
    induction fuel generalizing m with
    | zero => cases hrun
    | succ fuel ih =>
      by_cases hgoes : ∃ id, m.step.2 = .ok (.running id)
      · rw [run_succ_of_running hgoes] at hrun
        obtain ⟨n, hn, hresult⟩ := ih hrun
        exact ⟨n + 1, stopsAt_succ.mpr ⟨hgoes, hn⟩, by rw [hresult, stepped_succ']⟩
      · rw [run_succ_of_stops hgoes] at hrun
        exact ⟨0, stopsAt_zero.mpr hgoes, (Option.some.inj hrun).symm⟩
  · rintro ⟨n, hn, rfl⟩
    induction n generalizing m with
    | zero => exact ⟨1, run_succ_of_stops hn.stops 0⟩
    | succ n ih =>
      obtain ⟨hgoes, hrest⟩ := stopsAt_succ.mp hn
      obtain ⟨fuel, hrun⟩ := ih hrest
      exact ⟨fuel + 1, by rw [run_succ_of_running hgoes, hrun, stepped_succ']⟩

/-! ## The snapshots of a run -/

@[simp]
theorem length_snapshots (m : Machine σ α) (calls : Nat) : (m.snapshots calls).length = calls := by
  rw [snapshots, List.length_map, List.length_range]

theorem snapshots_succ (m : Machine σ α) (calls : Nat) :
    m.snapshots (calls + 1) =
      m.snapshots calls ++ [cycleSnapshot (m.stepped (calls + 1)) (m.stepped calls).step.2] := by
  rw [snapshots, List.range_succ, List.map_append, List.map_singleton, snapshots]

theorem GoesOn.snapshots_eq (h : m.GoesOn n) : m.snapshots n = m.firstSnapshots n := by
  apply List.map_congr_left
  intro k hk
  obtain ⟨id, hid⟩ := h k (List.mem_range.mp hk)
  rw [nextAction?, hid]
  rfl

/-! ## The calls that apply an action -/

theorem GoesOn.appliesFor (h : m.GoesOn n) : m.AppliesFor n := by
  intro k hk
  obtain ⟨id, hid⟩ := h k hk
  exact applies_of_running hid

/-- A call that goes on does not find or leave the machine at rest. -/
theorem not_atRest_of_running {id : ActionId} (h : m.step.2 = .ok (.running id)) :
    ¬m.step.1.AtRest := by
  obtain ⟨a, hlive, hstep⟩ := (applies_of_running h).step_eq
  intro hrest
  rw [hstep] at h hrest
  rw [if_pos ((atRest_apply_iff hlive).mp hrest)] at h
  cases h

/-- The last call applies an action unless it fails or the machine has halted before the run. -/
theorem StopsAt.applies_iff (h : m.StopsAt n) (hf : m.fault = none) :
    (m.stepped n).Applies ↔ (∃ p, (m.stepped n).step.2 = .ok p) ∧ m.isHalted = false := by
  constructor
  · intro happlies
    obtain ⟨a, -, hstep⟩ := happlies.step_eq
    refine ⟨⟨_, congrArg Prod.snd hstep⟩, ?_⟩
    rw [Bool.eq_false_iff]
    intro hhalted
    have hrest : m.AtRest := ⟨hf, hhalted⟩
    rw [hrest.stepped_eq] at happlies
    exact hrest.not_applies happlies
  · rintro ⟨⟨p, hp⟩, hunhalted⟩
    by_contra hno
    rcases atRest_or_fails hno with hrest | ⟨m', f, hstep⟩
    · cases n with
      | zero => cases hrest.halted.symm.trans hunhalted
      | succ n =>
        obtain ⟨id, hid⟩ := h.goesOn n (Nat.lt_succ_self n)
        exact not_atRest_of_running hid hrest
    · cases (congrArg Prod.snd hstep).symm.trans hp

/-- A call that applies no action counts none. -/
theorem stepCount_of_not_applies (h : ¬m.Applies) : m.step.1.stepCount = m.stepCount := by
  rcases m.step_cases with ⟨-, hstep⟩ | ⟨a, hlive, ha, -⟩ | ⟨-, -, hstep⟩
  · rw [hstep]
  · exact absurd (Machine.applies_iff.mpr ⟨hlive, a, ha⟩) h
  · rw [hstep]
    rfl

omit [DecidableEq σ] [DecidableEq α] [Quoted σ] [Quoted α] in
@[simp]
theorem stepCount_cycleSnapshot (m : Machine σ α) (result : Except Fault Progress) :
    (cycleSnapshot m result).stepCount = m.stepCount := by
  rcases result with f | _ | id <;> rfl

/-- The cycles that apply an action are numbered from one on. -/
theorem AppliesFor.stepCounts_eq (h : m.AppliesFor n) (hcount : m.stepCount = 0) :
    (m.snapshots n).map Snapshot.stepCount = List.range' 1 n := by
  rw [snapshots, List.map_map, List.range'_eq_map_range]
  apply List.map_congr_left
  intro k hk
  have hfirst := h.of_le (List.mem_range.mp hk)
  rw [Function.comp_apply, stepCount_cycleSnapshot, hfirst.stepCount_eq, hcount]
  omega

/-- The numbers of the cycles in the snapshots of a run: the number of the last cycle is there once more if the
run ends with a call that applies no action. -/
theorem StopsAt.stepCounts_eq (h : m.StopsAt n) (hf : m.fault = none) (hcount : m.stepCount = 0) :
    let m' := (m.stepped n).step.1
    m.AppliesFor m'.stepCount ∧
      (m.snapshots (n + 1)).map Snapshot.stepCount =
        List.range' 1 m'.stepCount ++
          if !(m.stepped n).step.2.isOk || m.isHalted then [m'.stepCount] else [] := by
  have hfirst : m.AppliesFor n := h.goesOn.appliesFor
  by_cases happlies : (m.stepped n).Applies
  · obtain ⟨⟨p, hp⟩, hunhalted⟩ := (h.applies_iff hf).mp happlies
    have hall : m.AppliesFor (n + 1) := appliesFor_succ.mpr ⟨hfirst, happlies⟩
    have hlast : (m.stepped n).step.1.stepCount = n + 1 := by
      rw [← stepped_succ, hall.stepCount_eq, hcount, Nat.zero_add]
    simp only [hlast, hp, hunhalted]
    exact ⟨hall, (hall.stepCounts_eq hcount).trans (List.append_nil _).symm⟩
  · have hlast : (m.stepped n).step.1.stepCount = n := by
      rw [stepCount_of_not_applies happlies, hfirst.stepCount_eq, hcount, Nat.zero_add]
    have hagain : (!(m.stepped n).step.2.isOk || m.isHalted) = true := by
      by_contra hneither
      rw [Bool.not_eq_true, Bool.or_eq_false_iff, Bool.not_eq_false'] at hneither
      apply happlies
      rw [h.applies_iff hf]
      refine ⟨?_, hneither.2⟩
      cases hstep : (m.stepped n).step.2 with
      | error f =>
        rw [hstep] at hneither
        cases hneither.1
      | ok p => exact ⟨p, rfl⟩
    simp only [hlast, hagain, if_true]
    refine ⟨hfirst, ?_⟩
    rw [snapshots_succ, List.map_append, hfirst.stepCounts_eq hcount, List.map_singleton,
      stepCount_cycleSnapshot, stepped_succ, hlast]

end Machine

namespace Session

/-! ## Letting a session go on -/

/-- What a step of the worker keeps is kept until it waits or has ended. -/
theorem settle_induction {P : Session σ α → Prop} {s s' : Session σ α} {fuel : Nat}
    (hadvance : ∀ s s', P s → s.advance = some s' → P s') (h : P s)
    (hsettle : s.settle fuel = some s') : P s' ∧ s'.advance = none := by
  induction fuel generalizing s with
  | zero => cases hsettle
  | succ fuel ih =>
    rw [settle] at hsettle
    split at hsettle
    · rename_i s₁ hs₁
      exact ih (hadvance s s₁ h hs₁) hsettle
    · rename_i hnone
      cases hsettle
      exact ⟨h, hnone⟩

theorem settle_of_follow? {s s' : Session σ α} {k : Nat}
    (hfollow : s.follow? (List.replicate k .advance) = some s') (hended : s'.isRunning = false) :
    s.settle (k + 1) = some s' := by
  induction k generalizing s with
  | zero =>
    cases hfollow
    have hnone : advance s' = none := by
      cases hs : advance s' with
      | none => rfl
      | some s₁ =>
        obtain ⟨w, hw, -⟩ := advance_cases hs
        cases (isRunning_of_alive hw).symm.trans hended
    rw [settle, hnone]
  | succ k ih =>
    obtain ⟨s₁, hs₁, hrest⟩ := Option.bind_eq_some_iff.mp hfollow
    have hs₁ : s.advance = some s₁ := hs₁
    rw [settle, hs₁]
    exact ih hrest

/-- A session that has just been started with a machine, for an observer that always returns. -/
def underway (m : Machine σ α) (speed : Speed) : Session σ α where
  machine? := none
  worker? := some (.alive ⟨m, fun _ _ => none, .gate⟩)
  controls := ⟨false, false, speed⟩
  started := true
  handle := .ready
  delivered := #[]

variable {m : Machine σ α} {speed : Speed} {s : Session σ α} {n : Nat}

/-- A session that is left alone ends where the run of its machine does, and has shown all of it. -/
theorem delivered_of_settle {fuel : Nat} (h : (underway m speed).settle fuel = some s) :
    s.Calm ∧ s.isRunning = false ∧
      ∃ n, m.StopsAt n ∧ s.delivered.toList = m.snapshots (n + 1) := by
  have hkept : ∀ s s' : Session σ α,
      (s.Calm ∧ s.controls = ⟨false, false, speed⟩ ∧ ∃ shown calls, s.Reporting m shown calls) →
        s.advance = some s' →
      s'.Calm ∧ s'.controls = ⟨false, false, speed⟩ ∧
        ∃ shown calls, s'.Reporting m shown calls := by
    rintro s s' ⟨hcalm, hcontrols, shown, calls, hreporting⟩ hnext
    obtain ⟨shown', hreporting'⟩ := hreporting.advance hnext
    exact ⟨hcalm.advance hnext, (controls_of_advance hnext).trans hcontrols, shown', _, hreporting'⟩
  have hstart : (underway m speed).Calm ∧
      (underway m speed).controls = ⟨false, false, speed⟩ ∧
        ∃ shown calls, (underway m speed).Reporting m shown calls := by
    refine ⟨.of_alive rfl (fun _ _ => rfl) (by simp), rfl, 0, 0, ?_⟩
    exact .of_alive (fun k hk => absurd hk (Nat.not_lt_zero k)) rfl rfl (fun _ _ => rfl)
      ⟨rfl, rfl, rfl⟩
  obtain ⟨⟨hcalm, hcontrols, shown, calls, hreporting⟩, hnone⟩ :=
    settle_induction hkept hstart h
  have hended : s.isRunning = false := by
    by_contra hrunning
    obtain ⟨s', hs'⟩ := exists_advance (Bool.not_eq_false _ ▸ hrunning) (by rw [hcontrols]; rfl)
    cases hnone.symm.trans hs'
  refine ⟨hcalm, hended, ?_⟩
  obtain ⟨last, hlast, hdelivered⟩ := hreporting.ended hended
  have huncancelled : s.controls.cancelled ≠ true := by
    rw [hcontrols]
    exact Bool.false_ne_true
  obtain ⟨-, hstops, rfl⟩ := hlast.cycle_or_cancelled.resolve_right fun h => huncancelled h.1
  refine ⟨shown, ⟨hreporting.goesOn, hstops⟩, ?_⟩
  rw [hdelivered, Machine.snapshots_succ, hreporting.goesOn.snapshots_eq]

/-- It does end if the run does. -/
theorem exists_settle_underway (h : m.StopsAt n) (speed : Speed) :
    ∃ fuel s, (underway m speed).settle fuel = some s := by
  have hexpiring : (underway m speed).Expiring (5 * n + 7) := by
    refine ⟨rfl, ?_⟩
    rintro w ⟨⟩
    have hends : ¬m.GoesOn (n + 1) := fun hgoes => h.stops (hgoes n (Nat.lt_succ_self n))
    exact ⟨n, hends, (Phase.stepsWithin_bounds .gate n).2⟩
  obtain ⟨k, -, s, hfollow, hended, -⟩ :=
    ends_within (P := Expiring) (fun _ _ h => h.exists_advance) hexpiring
  exact ⟨k + 1, s, settle_of_follow? hfollow hended⟩

end Session

end TapeMachine
