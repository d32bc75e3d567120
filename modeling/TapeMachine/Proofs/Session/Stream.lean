import TapeMachine.Proofs.Machine.Operation
import TapeMachine.Proofs.Session.History

/-!
# What the observer is shown

Whatever the handle does and however its calls fall between the steps of the worker, the observer is
shown the first cycles of the machine that was started, one snapshot for each, and then at most one
snapshot more, which is the last (`Session.delivered_after_start`). What is in them depends on nothing but
the machine, the number of the cycles and whether the run was cancelled.

The invariant is about the worker's phase: between two cycles all of them have been shown, before a
notification all but one (`Worker.Reports`).
-/

namespace TapeMachine

variable {σ α : Type} [DecidableEq σ] [DecidableEq α] [Quoted σ] [Quoted α]

namespace Machine

/-! ## The snapshots that a machine decides -/

/-- The action that the next call for a cycle returns, if the machine goes on after it. -/
def nextAction? (m : Machine σ α) : Option ActionId :=
  match m.step.2 with
  | .ok (.running id) => some id
  | _ => none

/-- Each of so many calls for a cycle returns an action. -/
def GoesOn (m : Machine σ α) (cycles : Nat) : Prop :=
  ∀ k < cycles, ∃ id, (m.stepped k).step.2 = .ok (.running id)

/-- The snapshots of so many cycles: the machine after each and the action that it returned. -/
def firstSnapshots (m : Machine σ α) (cycles : Nat) : List (Snapshot σ α) :=
  (List.range cycles).map fun k =>
    (m.stepped (k + 1)).snapshot (m.stepped k).nextAction? .running

/-- The snapshots that can follow those of the first `shown` cycles and be the last, with the number
of calls for a cycle that are made before. -/
inductive LastSnapshot (m : Machine σ α) (shown : Nat) (cancelled : Prop) :
    (calls : Nat) → Snapshot σ α → Prop
  | halted : (m.stepped shown).step.2 = .ok .halted →
      LastSnapshot m shown cancelled (shown + 1) ((m.stepped (shown + 1)).snapshot none .halted)
  | failed {f : Fault} : (m.stepped shown).step.2 = .error f →
      LastSnapshot m shown cancelled (shown + 1) ((m.stepped (shown + 1)).snapshot none (.failed f))
  | cancelled : cancelled →
      LastSnapshot m shown cancelled shown ((m.stepped shown).snapshot none .cancelled)

variable {m : Machine σ α} {shown calls : Nat}

theorem GoesOn.succ {id : ActionId} (h : m.GoesOn shown)
    (hnext : (m.stepped shown).step.2 = .ok (.running id)) : m.GoesOn (shown + 1) := by
  intro k hk
  rcases Nat.lt_succ_iff_lt_or_eq.mp hk with hk | rfl
  · exact h k hk
  · exact ⟨id, hnext⟩

theorem goesOn_succ' : m.GoesOn (shown + 1) ↔
    (∃ id, m.step.2 = .ok (.running id)) ∧ m.step.1.GoesOn shown := by
  constructor
  · intro h
    refine ⟨h 0 (Nat.succ_pos shown), fun k hk => ?_⟩
    rw [← stepped_succ']
    exact h (k + 1) (Nat.succ_lt_succ hk)
  · rintro ⟨hfirst, hrest⟩ k hk
    cases k with
    | zero => exact hfirst
    | succ k =>
      rw [stepped_succ']
      exact hrest k (Nat.lt_of_succ_lt_succ hk)

/-- A machine that does not go on never goes on again. -/
theorem not_goesOn_of_stops (h : ¬∃ id, m.step.2 = .ok (.running id)) : ¬m.step.1.GoesOn 1 := by
  intro hgoes
  obtain ⟨id, hid⟩ := hgoes 0 Nat.one_pos
  rw [stepped_zero] at hid
  rcases m.step_cases with ⟨-, hstep⟩ | ⟨a, hlive, ha, hstep⟩ | ⟨hlive, -, hstep⟩
  · rw [hstep] at hid
    exact h ⟨id, hid⟩
  · have hhalt : a.rule.next = m.config.halt := by
      by_contra hne
      exact h ⟨a.id, by rw [step_of_lookup_some hlive ha, if_neg hne]⟩
    have hunfaulted : (m.apply a).fault = none := hlive.unfaulted
    have hhalted : (m.apply a).isHalted = true := by
      rw [isHalted, Bool.and_eq_true, decide_eq_true_eq]
      exact ⟨hlive.initialized, hhalt⟩
    rw [hstep, step_of_halted hunfaulted hhalted] at hid
    cases hid
  · have hi : m.fail.isInitialized = true := hlive.initialized
    rw [hstep, step_of_fault hi rfl] at hid
    cases hid

theorem length_firstSnapshots (m : Machine σ α) (cycles : Nat) :
    (m.firstSnapshots cycles).length = cycles := by
  rw [firstSnapshots, List.length_map, List.length_range]

theorem firstSnapshots_succ {id : ActionId}
    (hnext : (m.stepped shown).step.2 = .ok (.running id)) :
    m.firstSnapshots (shown + 1) =
      m.firstSnapshots shown ++ [(m.stepped (shown + 1)).snapshot (some id) .running] := by
  have hid : (m.stepped shown).nextAction? = some id := by
    rw [nextAction?, hnext]
  rw [firstSnapshots, List.range_succ, List.map_append, List.map_singleton, hid, firstSnapshots]

/-- Each of the first snapshots is that of its cycle. -/
theorem eq_of_getElem?_firstSnapshots {k : Nat} {snapshot : Snapshot σ α} (h : m.GoesOn shown)
    (hk : (m.firstSnapshots shown)[k]? = some snapshot) :
    snapshot = cycleSnapshot (m.stepped (k + 1)) (m.stepped k).step.2 := by
  rw [firstSnapshots, List.getElem?_map, Option.map_eq_some_iff] at hk
  obtain ⟨k', hk', rfl⟩ := hk
  obtain ⟨hlt, hindex⟩ := List.getElem?_eq_some_iff.mp hk'
  rw [List.getElem_range] at hindex
  rw [List.length_range] at hlt
  obtain ⟨id, hid⟩ := h k hlt
  rw [← hindex]
  rw [nextAction?, hid]
  rfl

/-- So is the last one, of the call that does not go on, unless the run is cancelled. -/
theorem LastSnapshot.cycle_or_cancelled {cancelled : Prop} {last : Snapshot σ α}
    (h : m.LastSnapshot shown cancelled calls last) :
    (calls = shown + 1 ∧ (¬∃ id, (m.stepped shown).step.2 = .ok (.running id)) ∧
        last = cycleSnapshot (m.stepped (shown + 1)) (m.stepped shown).step.2) ∨
      (cancelled ∧ last = (m.stepped shown).snapshot none .cancelled) := by
  cases h with
  | halted hhalted =>
    rw [hhalted]
    exact .inl ⟨rfl, by simp, rfl⟩
  | failed hfailed =>
    rw [hfailed]
    exact .inl ⟨rfl, by simp, rfl⟩
  | cancelled hcancelled => exact .inr ⟨hcancelled, rfl⟩

theorem LastSnapshot.isTerminal {cancelled : Prop} {last : Snapshot σ α}
    (h : m.LastSnapshot shown cancelled calls last) : last.isTerminal = true := by
  cases h <;> rfl

theorem LastSnapshot.calls_eq {cancelled : Prop} {last : Snapshot σ α}
    (h : m.LastSnapshot shown cancelled calls last) : calls = shown ∨ calls = shown + 1 := by
  cases h with
  | halted => exact .inr rfl
  | failed => exact .inr rfl
  | cancelled => exact .inl rfl

/-- The number of calls tells the last snapshot. -/
theorem LastSnapshot.unique {p q : Prop} {calls' : Nat} {last last' : Snapshot σ α}
    (h : m.LastSnapshot shown p calls last) (h' : m.LastSnapshot shown q calls' last')
    (hcalls : calls = calls') : last = last' := by
  cases h with
  | halted hhalted =>
    cases h' with
    | halted => rfl
    | failed hfailed => cases hhalted.symm.trans hfailed
    | cancelled => exact absurd hcalls (Nat.succ_ne_self shown)
  | failed hfailed =>
    cases h' with
    | halted hhalted => cases hhalted.symm.trans hfailed
    | failed hfailed' =>
      cases hfailed.symm.trans hfailed'
      rfl
    | cancelled => exact absurd hcalls (Nat.succ_ne_self shown)
  | cancelled =>
    cases h' with
    | halted => exact absurd hcalls (Nat.succ_ne_self shown).symm
    | failed => exact absurd hcalls (Nat.succ_ne_self shown).symm
    | cancelled => rfl

theorem LastSnapshot.mono {p q : Prop} {last : Snapshot σ α}
    (h : m.LastSnapshot shown p calls last) (hpq : p → q) :
    m.LastSnapshot shown q calls last := by
  cases h with
  | halted h => exact .halted h
  | failed h => exact .failed h
  | cancelled h => exact .cancelled (hpq h)

end Machine

/-- The calls that cancel a run. -/
def Event.Cancels : Event σ α → Prop
  | .call .cancel => True
  | .call (.request request) => request ≠ .join
  | _ => False

/-! ## What a worker has shown and is about to show -/

/-- The observer of a worker never panics. -/
def Worker.Quiet (w : Worker σ α) : Prop :=
  ∀ call snapshot, w.observer call snapshot = none

/-- How a worker that was started with `m` stands to what it has shown, `shown` cycles so far, after
`calls` calls for a cycle. -/
def Worker.Reports (w : Worker σ α) (m : Machine σ α) (shown calls : Nat) (cancelled : Prop)
    (delivered : List (Snapshot σ α)) : Prop :=
  match w.phase with
  | .gate | .cycle | .throttle | .observing false none =>
    w.machine = m.stepped shown ∧ calls = shown ∧ delivered = m.firstSnapshots shown
  | .notify snapshot =>
    delivered = m.firstSnapshots shown ∧
      ((∃ id, w.machine = m.stepped (shown + 1) ∧ calls = shown + 1 ∧
          (m.stepped shown).step.2 = .ok (.running id) ∧
          snapshot = (m.stepped (shown + 1)).snapshot (some id) .running) ∨
        m.LastSnapshot shown cancelled calls snapshot)
  | .observing true none =>
    ∃ last, m.LastSnapshot shown cancelled calls last ∧
      delivered = m.firstSnapshots shown ++ [last]
  | .observing _ (some _) => False

theorem Worker.Reports.mono {w : Worker σ α} {m : Machine σ α} {shown calls : Nat} {p q : Prop}
    {delivered : List (Snapshot σ α)} (h : w.Reports m shown calls p delivered) (hpq : p → q) :
    w.Reports m shown calls q delivered := by
  obtain ⟨machine, observer, phase⟩ := w
  cases phase with
  | gate => exact h
  | cycle => exact h
  | notify snapshot =>
    obtain ⟨hdelivered, hnext | hlast⟩ := h
    · exact ⟨hdelivered, .inl hnext⟩
    · exact ⟨hdelivered, .inr (hlast.mono hpq)⟩
  | observing last ending =>
    cases ending with
    | some p => cases last <;> exact h
    | none =>
      cases last with
      | false => exact h
      | true =>
        obtain ⟨last, hlast, hdelivered⟩ := h
        exact ⟨last, hlast.mono hpq, hdelivered⟩
  | throttle => exact h

namespace Session

/-- Tells that the worker calls for a cycle. -/
def callsCycle (s : Session σ α) : Event σ α → Bool
  | .advance => (s.phase? matches some .cycle)
  | _ => false

/-- The observer has been shown all that it will be. -/
def Closed (s : Session σ α) (m : Machine σ α) (shown calls : Nat) : Prop :=
  ∃ last, m.LastSnapshot shown (s.controls.cancelled = true) calls last ∧
    s.delivered.toList = m.firstSnapshots shown ++ [last]

/-- What a session whose worker was started with `m` has shown and is about to show. -/
structure Reporting (s : Session σ α) (m : Machine σ α) (shown calls : Nat) : Prop where
  goesOn : m.GoesOn shown
  started : s.started = true
  quiet : ∀ w, s.worker? = some (.alive w) → w.Quiet
  alive : ∀ w, s.worker? = some (.alive w) →
    w.Reports m shown calls (s.controls.cancelled = true) s.delivered.toList
  ended : s.isRunning = false → s.Closed m shown calls

namespace Reporting

variable {s s' : Session σ α} {w : Worker σ α} {m : Machine σ α} {shown calls : Nat}

theorem of_alive (hgoes : m.GoesOn shown) (hstarted : s.started = true)
    (hw : s.worker? = some (.alive w)) (hquiet : w.Quiet)
    (hreports :
      w.Reports m shown calls (s.controls.cancelled = true) s.delivered.toList) :
    s.Reporting m shown calls where
  goesOn := hgoes
  started := hstarted
  quiet w' hw' := by
    cases hw.symm.trans hw'
    exact hquiet
  alive w' hw' := by
    cases hw.symm.trans hw'
    exact hreports
  ended hended := by
    cases (isRunning_of_alive hw).symm.trans hended

/-- The cycle that the worker runs past the gate is the next one, and it is about to be shown. -/
theorem cycle (hmachine : w.machine = m.stepped shown) (hcalls : calls = shown)
    {cancelled : Prop} {delivered : List (Snapshot σ α)}
    (hdelivered : delivered = m.firstSnapshots shown) :
    Worker.Reports
      { w with
        machine := w.machine.step.1
        phase := .notify (cycleSnapshot w.machine.step.1 w.machine.step.2) }
      m shown (calls + 1) cancelled delivered := by
  refine ⟨hdelivered, ?_⟩
  rw [hmachine, hcalls]
  cases hstep : (m.stepped shown).step.2 with
  | error f => exact .inr (.failed hstep)
  | ok progress =>
    cases progress with
    | halted => exact .inr (.halted hstep)
    | running id => exact .inl ⟨id, rfl, rfl, rfl, rfl⟩

/-- A snapshot that is shown is that of the next cycle, or the last. -/
theorem notify {snapshot : Snapshot σ α} (h : s.Reporting m shown calls)
    (hw : s.worker? = some (.alive w)) (hphase : w.phase = .notify snapshot) :
    ∃ shown', ({ s with delivered := s.delivered.push snapshot }.withPhase w
      (.observing snapshot.isTerminal (w.observer (s.delivered.size + 1) snapshot))).Reporting
        m shown' calls := by
  have hreports := h.alive w hw
  simp only [Worker.Reports, hphase] at hreports
  obtain ⟨hdelivered, hsnapshot⟩ := hreports
  have hdelivered' :
      (s.delivered.push snapshot).toList = m.firstSnapshots shown ++ [snapshot] := by
    rw [Array.toList_push, hdelivered]
  rw [h.quiet w hw]
  rcases hsnapshot with ⟨id, hmachine, hcalls, hnext, rfl⟩ | hlast
  · -- one more cycle has been shown
    refine ⟨shown + 1, of_alive (h.goesOn.succ hnext) h.started rfl (h.quiet w hw) ?_⟩
    exact ⟨hmachine, hcalls, hdelivered'.trans (Machine.firstSnapshots_succ hnext).symm⟩
  · refine ⟨shown, of_alive h.goesOn h.started rfl (h.quiet w hw) ?_⟩
    rw [hlast.isTerminal]
    exact ⟨snapshot, hlast, hdelivered'⟩

theorem advance (h : s.Reporting m shown calls) (hnext : s.advance = some s') :
    ∃ shown', s'.Reporting m shown' (calls + (s.callsCycle .advance).toNat) := by
  obtain ⟨w, hw, hadvance⟩ := advance_cases hnext
  have hquiet := h.quiet w hw
  have hreports := h.alive w hw
  simp only [callsCycle, phase?_of_alive hw]
  cases hadvance with
  | stop hgate hcancelled =>
    simp only [Worker.Reports, hgate] at hreports ⊢
    obtain ⟨hmachine, hcalls, hdelivered⟩ := hreports
    refine ⟨shown, of_alive h.goesOn h.started rfl hquiet ⟨hdelivered, .inr ?_⟩⟩
    rw [hmachine, hcalls]
    exact .cancelled hcancelled
  | pass hgate =>
    simp only [Worker.Reports, hgate] at hreports ⊢
    exact ⟨shown, of_alive h.goesOn h.started rfl hquiet hreports⟩
  | cycle hcycle =>
    simp only [Worker.Reports, hcycle] at hreports ⊢
    obtain ⟨hmachine, hcalls, hdelivered⟩ := hreports
    exact ⟨shown, of_alive h.goesOn h.started rfl hquiet (cycle hmachine hcalls hdelivered)⟩
  | notify hnotify =>
    rw [hnotify]
    exact h.notify hw hnotify
  | panic hobserving =>
    -- the observer does not panic
    simp only [Worker.Reports, hobserving] at hreports
  | finish hobserving =>
    simp only [Worker.Reports, hobserving] at hreports ⊢
    refine ⟨shown, ⟨h.goesOn, h.started, ?_, ?_, fun _ => hreports⟩⟩
    · intro w' hw'
      cases hw'
    · intro w' hw'
      cases hw'
  | sleep hobserving =>
    simp only [Worker.Reports, hobserving] at hreports ⊢
    exact ⟨shown, of_alive h.goesOn h.started rfl hquiet hreports⟩
  | wake hthrottle =>
    simp only [Worker.Reports, hthrottle] at hreports ⊢
    exact ⟨shown, of_alive h.goesOn h.started rfl hquiet hreports⟩

theorem frame (h : s.Reporting m shown calls) (hframe : s.Frame s') :
    s'.Reporting m shown calls where
  goesOn := h.goesOn
  started := hframe.started h.started
  quiet w hw := h.quiet w ((hframe.alive h.started w).mp hw)
  alive w hw := by
    rw [hframe.delivered]
    exact (h.alive w ((hframe.alive h.started w).mp hw)).mono hframe.cancelled
  ended hended := by
    have hended' : s.isRunning = false := by
      rw [Bool.eq_false_iff]
      intro hrunning
      obtain ⟨w, hw⟩ := exists_alive_of_isRunning hrunning
      cases (isRunning_of_alive ((hframe.alive h.started w).mpr hw)).symm.trans hended
    obtain ⟨last, hlast, hdelivered⟩ := h.ended hended'
    exact ⟨last, hlast.mono hframe.cancelled, by rw [hframe.delivered, hdelivered]⟩

theorem next? {e : Event σ α} (h : s.Reporting m shown calls) (hnext : s.next? e = some s') :
    ∃ shown', s'.Reporting m shown' (calls + (s.callsCycle e).toNat) := by
  rcases next?_cases hnext with ⟨rfl, hadvance⟩ | ⟨hcall, hframe⟩
  · exact h.advance hadvance
  · have hno : s.callsCycle e = false := by
      cases e with
      | advance => exact absurd rfl hcall
      | call call => rfl
      | conclude => rfl
    rw [hno]
    exact ⟨shown, h.frame hframe⟩

theorem follow? {es : List (Event σ α)} (h : s.Reporting m shown calls)
    (hfollow : s.follow? es = some s') :
    ∃ shown', s'.Reporting m shown' (calls + s.tally callsCycle es) := by
  refine follow?_induction
    (P := fun es s' => ∃ shown', s'.Reporting m shown' (calls + s.tally callsCycle es))
    ⟨shown, h⟩ ?_ hfollow
  -- the number of the cycles shown is what a step of the worker changes
  intro es s₁ s₂ e hs₁ ⟨shown', hreporting⟩ hnext
  rw [tally_concat hs₁, ← Nat.add_assoc]
  exact hreporting.next? hnext

end Reporting

/-! ## After the last snapshot -/

/-- The worker has nothing more to show. -/
structure Silent (s : Session σ α) : Prop where
  started : s.started = true
  returning : ∀ w, s.worker? = some (.alive w) → w.phase = .observing true none

theorem Silent.next? {s s' : Session σ α} {e : Event σ α} (h : s.Silent)
    (hnext : s.next? e = some s') : s'.Silent ∧ s'.delivered = s.delivered := by
  rcases next?_cases hnext with ⟨-, hadvance⟩ | ⟨-, hframe⟩
  · obtain ⟨w, hw, hadvance⟩ := advance_cases hadvance
    have hphase := h.returning w hw
    cases hadvance with
    | stop hgate => cases hphase.symm.trans hgate
    | pass hgate => cases hphase.symm.trans hgate
    | cycle hcycle => cases hphase.symm.trans hcycle
    | notify hnotify => cases hphase.symm.trans hnotify
    | panic hobserving => cases hphase.symm.trans hobserving
    | finish hobserving =>
      refine ⟨⟨h.started, fun w' hw' => ?_⟩, rfl⟩
      cases hw'
    | sleep hobserving => cases hphase.symm.trans hobserving
    | wake hthrottle => cases hphase.symm.trans hthrottle
  · refine ⟨⟨hframe.started h.started, fun w hw => ?_⟩, hframe.delivered⟩
    exact h.returning w ((hframe.alive h.started w).mp hw)

theorem Silent.delivered_eq {s s' : Session σ α} {es : List (Event σ α)} (h : s.Silent)
    (hfollow : s.follow? es = some s') : s'.delivered = s.delivered := by
  have hkept : s'.Silent ∧ s'.delivered = s.delivered := by
    refine follow?_induction (P := fun _ s' => s'.Silent ∧ s'.delivered = s.delivered)
      ⟨h, rfl⟩ ?_ hfollow
    intro _ s₁ s₂ e _ ⟨hsilent, hdelivered⟩ hnext
    obtain ⟨hsilent', hdelivered'⟩ := hsilent.next? hnext
    exact ⟨hsilent', hdelivered'.trans hdelivered⟩
  exact hkept.2

/-- Either the worker goes on and no more than the first cycles has been shown, or all has been. -/
theorem Reporting.going_or_silent {s : Session σ α} {m : Machine σ α} {shown calls : Nat}
    (h : s.Reporting m shown calls) :
    (s.isRunning = true ∧ (calls = shown ∨ calls = shown + 1) ∧
        s.delivered.toList = m.firstSnapshots shown) ∨
      (s.Silent ∧ s.Closed m shown calls) := by
  cases hrunning : s.isRunning with
  | false =>
    refine .inr ⟨⟨h.started, fun w hw => ?_⟩, h.ended hrunning⟩
    cases (isRunning_of_alive hw).symm.trans hrunning
  | true =>
    obtain ⟨w, hw⟩ := exists_alive_of_isRunning hrunning
    have hreports := h.alive w hw
    unfold Worker.Reports at hreports
    split at hreports
    · exact .inl ⟨rfl, .inl hreports.2.1, hreports.2.2⟩
    · exact .inl ⟨rfl, .inl hreports.2.1, hreports.2.2⟩
    · exact .inl ⟨rfl, .inl hreports.2.1, hreports.2.2⟩
    · exact .inl ⟨rfl, .inl hreports.2.1, hreports.2.2⟩
    · obtain ⟨hdelivered, ⟨id, -, hcalls, -, -⟩ | hlast⟩ := hreports
      · exact .inl ⟨rfl, .inr hcalls, hdelivered⟩
      · exact .inl ⟨rfl, hlast.calls_eq, hdelivered⟩
    · rename_i hphase
      refine .inr ⟨⟨h.started, fun w' hw' => ?_⟩, hreports⟩
      cases hw.symm.trans hw'
      exact hphase
    · exact hreports.elim

/-- What has been shown is shown of the cycles in their order. -/
theorem Reporting.shows {s : Session σ α} {m : Machine σ α} {shown calls k : Nat}
    {snapshot : Snapshot σ α} (h : s.Reporting m shown calls)
    (hk : s.delivered[k]? = some snapshot) :
    snapshot = cycleSnapshot (m.stepped (k + 1)) (m.stepped k).step.2 ∨
      snapshot = (m.stepped k).snapshot none .cancelled := by
  rw [← Array.getElem?_toList] at hk
  rcases h.going_or_silent with ⟨-, -, hdelivered⟩ | ⟨-, last, hlast, hdelivered⟩
  · rw [hdelivered] at hk
    exact .inl (Machine.eq_of_getElem?_firstSnapshots h.goesOn hk)
  · rw [hdelivered] at hk
    have hlength := m.length_firstSnapshots shown
    rcases Nat.lt_or_ge k shown with hlt | hge
    · rw [List.getElem?_append_left (by omega)] at hk
      exact .inl (Machine.eq_of_getElem?_firstSnapshots h.goesOn hk)
    · rw [List.getElem?_append_right (by omega), hlength, List.getElem?_singleton] at hk
      split at hk
      · cases hk
        have hshown : k = shown := by omega
        rw [hshown]
        exact hlast.cycle_or_cancelled.imp (fun hcycle => hcycle.2.2) And.right
      · cases hk

/-! ## Before the start and since -/

theorem cancelled_of_next? {s s' : Session σ α} {e : Event σ α} (h : s.next? e = some s')
    (hcancelled : s'.controls.cancelled = true) :
    s.controls.cancelled = true ∨ e.Cancels := by
  cases e with
  | advance => exact .inl ((controls_of_advance h) ▸ hcancelled)
  | conclude =>
    obtain ⟨request, -, -, rfl⟩ := next?_conclude_eq_some_iff.mp h
    exact .inl (controls_conclude s request ▸ hcancelled)
  | call call =>
    obtain ⟨-, rfl⟩ := next?_call_eq_some_iff.mp h
    cases call with
    | pause => exact .inl hcancelled
    | resume => exact .inl hcancelled
    | cancel => exact .inr trivial
    | setSpeed speed => exact .inl hcancelled
    | isPaused => exact .inl hcancelled
    | isRunning => exact .inl hcancelled
    | machine => exact .inl hcancelled
    | start observer spawn => exact .inl (controls_start s observer spawn ▸ hcancelled)
    | step => exact .inl (controls_step s ▸ hcancelled)
    | request request =>
      cases request with
      | join => exact .inl (controls_request_join s ▸ hcancelled)
      | intoMachine => exact .inr (by simp [Event.Cancels])
      | drop => exact .inr (by simp [Event.Cancels])

theorem cancelled_of_follow? {s s' : Session σ α} {es : List (Event σ α)}
    (hfollow : s.follow? es = some s') (hcancelled : s'.controls.cancelled = true) :
    s.controls.cancelled = true ∨ ∃ e ∈ es, e.Cancels := by
  refine follow?_induction
    (P := fun es s' => s'.controls.cancelled = true →
      s.controls.cancelled = true ∨ ∃ e ∈ es, e.Cancels) .inl ?_ hfollow hcancelled
  intro es s₁ s₂ e _ ih hnext hcancelled
  rcases cancelled_of_next? hnext hcancelled with hcancelled | he
  · rcases ih hcancelled with h | ⟨e', he', h⟩
    · exact .inl h
    · exact .inr ⟨e', List.mem_append_left _ he', h⟩
  · exact .inr ⟨e, by simp, he⟩

/-- Before a worker is started there is none, and nothing is shown. -/
theorem idle_of_not_started {s₀ s : Session σ α} {es : List (Event σ α)}
    (hfollow : s₀.follow? es = some s) (hdelivered : s₀.delivered = #[])
    (hworker : s₀.worker? = none) (hs : s.started = false) :
    s.delivered = #[] ∧ s.worker? = none := by
  refine follow?_induction
    (P := fun _ s => s.started = false → s.delivered = #[] ∧ s.worker? = none)
    (fun _ => ⟨hdelivered, hworker⟩) ?_ hfollow hs
  intro _ s₁ s₂ e _ ih hnext hs₂
  obtain ⟨hdelivered₁, hworker₁⟩ := ih (not_started_of_next? hnext hs₂)
  rcases next?_cases hnext with ⟨-, hadvance⟩ | ⟨-, hframe⟩
  · -- a worker that takes a step has been started
    obtain ⟨w, hw, -⟩ := advance_cases hadvance
    cases hw.symm.trans hworker₁
  · exact ⟨hframe.delivered.trans hdelivered₁, hframe.idle hs₂ hworker₁⟩

/-- Nothing is shown before a worker is started. -/
theorem delivered_of_not_started {s₀ s : Session σ α} {es : List (Event σ α)}
    (hfollow : s₀.follow? es = some s) (hdelivered : s₀.delivered = #[])
    (hworker : s₀.worker? = none) (hs : s.started = false) : s.delivered = #[] :=
  (idle_of_not_started hfollow hdelivered hworker hs).1

/-- The observer of a session that was started with `m` is shown the first cycles of `m` and then, if
the worker has come to its end, one snapshot more. -/
theorem delivered_after_start {m₀ : Machine σ α} {speed : Speed} {s₀ s₁ s₂ s : Session σ α}
    {before after : List (Event σ α)} {observer : Observer σ α}
    (hnew : Session.new m₀ speed = .ok s₀) (hbefore : s₀.follow? before = some s₁)
    (hstart : s₁.start observer .granted = (s₂, .ok ()))
    (hquiet : ∀ call snapshot, observer call snapshot = none)
    (hafter : s₂.follow? after = some s) :
    ∃ m, s₁.machine? = some m ∧ ∃ shown, m.GoesOn shown ∧
      ((s.isRunning = true ∧
          (s₂.tally callsCycle after = shown ∨ s₂.tally callsCycle after = shown + 1) ∧
          s.delivered.toList = m.firstSnapshots shown) ∨
        ∃ last,
          m.LastSnapshot shown (∃ e ∈ before ++ after, e.Cancels) (s₂.tally callsCycle after)
              last ∧
            (∀ last', m.LastSnapshot shown True (s₂.tally callsCycle after) last' → last' = last) ∧
            s.delivered.toList = m.firstSnapshots shown ++ [last] ∧
            ∀ more s', s.follow? more = some s' → s'.delivered = s.delivered) := by
  obtain ⟨-, hs₁, m, hm, rfl⟩ := start_eq_ok_iff.mp hstart
  refine ⟨m, hm, ?_⟩
  have hfresh : s₀.delivered = #[] ∧ s₀.worker? = none ∧ s₀.controls.cancelled = false := by
    unfold Session.new at hnew
    split at hnew
    · cases hnew
      exact ⟨rfl, rfl, rfl⟩
    · cases hnew
  have hstarted : Reporting _ m 0 0 := Reporting.of_alive
    (s := { s₁ with
      machine? := none
      worker? := some (.alive ⟨m, observer, .gate⟩)
      started := true })
    (fun k hk => absurd hk (Nat.not_lt_zero k)) rfl rfl hquiet
    ⟨rfl, rfl, by rw [delivered_of_not_started hbefore hfresh.1 hfresh.2.1 hs₁]; rfl⟩
  obtain ⟨shown, hreporting⟩ := hstarted.follow? hafter
  rw [Nat.zero_add] at hreporting
  have hcancels : s.controls.cancelled = true → ∃ e ∈ before ++ after, e.Cancels := by
    intro hcancelled
    rcases cancelled_of_follow? hafter hcancelled with h | ⟨e, he, h⟩
    · rcases cancelled_of_follow? hbefore h with h | ⟨e, he, h⟩
      · cases h.symm.trans hfresh.2.2
      · exact ⟨e, List.mem_append_left _ he, h⟩
    · exact ⟨e, List.mem_append_right _ he, h⟩
  refine ⟨shown, hreporting.goesOn, ?_⟩
  rcases hreporting.going_or_silent with hgoing | ⟨hsilent, last, hlast, hdelivered⟩
  · exact .inl hgoing
  · exact .inr ⟨last, hlast.mono hcancels, fun last' h => h.unique hlast rfl, hdelivered,
      fun more s' => hsilent.delivered_eq⟩

/-- A session that is paused before the start and again while its second cycle is shown, and whose machine
fails in the third. -/
theorem delivered_after_start_failed :
    let config : Config Int Int := ⟨0, 3, ⟨0, 9⟩, .consume⟩
    let rules : List (Rule Int Int) :=
      [⟨⟨0, [0], [0]⟩, [5], [7], [.left], 1⟩, ⟨⟨1, [0], [7]⟩, [6], [9], [.right], 2⟩]
    let m := (Machine.new config).after
      ([.addTape [], .addStack []] ++ rules.map .addAction ++ [.init])
    let failing : Key Int Int := ⟨2, [5], [0]⟩
    let steps (n : Nat) : List (Event Int Int) := List.replicate n .advance
    let before := [.call .pause]
    let after := .call .resume :: (steps 7 ++ .call .pause :: (steps 3 ++ .call .resume :: steps 4))
    ∃ s₀ s₁ s₂ s, Session.new m .unlimited = .ok s₀ ∧ s₀.follow? before = some s₁ ∧
      s₁.start (fun _ _ => none) .granted = (s₂, .ok ()) ∧ s₂.follow? after = some s ∧
      s.isRunning = false ∧ s₂.tally callsCycle after = 3 ∧ s₁.machine? = some m ∧
      ∃ last, m.LastSnapshot 2 (∃ e ∈ before ++ after, e.Cancels) 3 last ∧
        last.status = .failed (Machine.undefinedTransition failing) ∧
        s.delivered.toList = m.firstSnapshots 2 ++ [last] := by
  intro config rules m failing steps before after
  have hi : m.isInitialized = true := by decide
  let s₀ : Session Int Int := ⟨some m, none, ⟨false, false, .unlimited⟩, false, .ready, #[]⟩
  have hnew : Session.new m .unlimited = .ok s₀ := if_pos hi
  have hfails : (m.stepped 2).step.2 = .error (Machine.undefinedTransition failing) := by decide
  obtain ⟨s₁, s₂, hbefore, hstart, hm, hends⟩ : ∃ s₁ s₂, s₀.follow? before = some s₁ ∧
      s₁.start (fun _ _ => none) .granted = (s₂, .ok ()) ∧ s₁.machine? = some m ∧
      (s₂.follow? after).map (fun s => (s.isRunning, s.delivered.size)) = some (false, 3) :=
    ⟨_, _, rfl, rfl, rfl, by decide +kernel⟩
  obtain ⟨s, hafter, hshows⟩ := Option.map_eq_some_iff.mp hends
  obtain ⟨hended, hsize⟩ := Prod.mk.inj hshows
  have hnone : ¬∃ e ∈ before ++ after, e.Cancels := by
    simp [before, after, steps, Event.Cancels]
  clear_value m s₀
  obtain ⟨m', hm', shown, -, ⟨hrunning, -⟩ | ⟨last, hlast, -, hdelivered, -⟩⟩ :=
    delivered_after_start hnew hbefore hstart (fun _ _ => rfl) hafter
  · cases hended.symm.trans hrunning
  · cases hm.symm.trans hm'
    have hshown : shown = 2 := by
      have hlength := congrArg List.length hdelivered
      rw [Array.length_toList, hsize, List.length_append, Machine.length_firstSnapshots] at hlength
      exact (Nat.succ.inj hlength).symm
    subst hshown
    generalize htally : s₂.tally callsCycle after = calls at hlast
    obtain ⟨rfl, -, hcycle⟩ | ⟨hcancelled, -⟩ := hlast.cycle_or_cancelled
    · have hstatus : last.status = .failed (Machine.undefinedTransition failing) := by
        rw [hcycle, hfails]
        rfl
      exact ⟨s₀, s₁, s₂, s, hnew, hbefore, hstart, hafter, hended, htally, hm, last, hlast, hstatus,
        hdelivered⟩
    · exact absurd hcancelled hnone

end Session

end TapeMachine
