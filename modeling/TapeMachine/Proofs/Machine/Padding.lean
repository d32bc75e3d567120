import Mathlib.Data.List.Forall2
import TapeMachine.Proofs.Machine.Textbook
import TapeMachine.Proofs.Tape.Trimmed

/-!
# Machines with different blanks stored

Two machines can stand for the same tapes without ends and still have different cells: where one walks over
a stored blank, the other grows by one, and where one pops a stored blank, the other finds its stack empty.
Such machines (`Machine.Alike`) give the same answer to every call, and what a call leaves is alike again
(`Alike.step`), failed cycles included. So are their runs (`Alike.stepped`, `Alike.runFor`), and all that can be
told of what they leave is how many blanks there are at the ends (`Alike.lookAlike`).
-/

namespace TapeMachine

/-- Two lists come to the same item by item. -/
theorem map_eq_iff_forall₂ {β γ : Type} {f : β → γ} {l l' : List β} :
    l'.map f = l.map f ↔ List.Forall₂ (fun x x' => f x' = f x) l l' := by
  rw [eq_comm, ← List.forall₂_eq_eq_eq, List.forall₂_map_left_iff, List.forall₂_map_right_iff]
  simp only [eq_comm]

namespace Machine

variable {σ α : Type}

/-- A cycle that fails takes the top of every stack or leaves the stacks alone. -/
theorem unbounded_fail [Quoted σ] [Quoted α] (m : Machine σ α) :
    m.fail.unbounded = { m.unbounded with
      pushdowns :=
        match m.config.mode with
        | .consume => m.unbounded.pushdowns.map EndlessStack.rest
        | .atomic => m.unbounded.pushdowns } := by
  cases hmode : m.config.mode with
  | consume =>
    have hspoiled : m.fail.contents = m.contents.popAll := by
      simp only [Machine.fail, spoiled, hmode]
    simp only [Machine.unbounded, hspoiled, Contents.popAll, List.map_map, Function.comp_def,
      Stack.unbounded_rest]
    rfl
  | atomic =>
    have hspoiled : m.fail.contents = m.contents := by
      simp only [Machine.fail, spoiled, hmode]
    simp only [Machine.unbounded, hspoiled]
    rfl

variable [DecidableEq σ]

/-- Initialized machines that stand for the same configuration, with the same rules and the same past. -/
structure Alike (m m' : Machine σ α) : Prop where
  config : m'.config = m.config
  table : m'.table = m.table
  stepCount : m'.stepCount = m.stepCount
  fault : m'.fault = m.fault
  unbounded : m'.unbounded = m.unbounded
  initialized : m.isInitialized = true
  initialized' : m'.isInitialized = true
  wellFormed : m.WellFormed
  wellFormed' : m'.WellFormed

/-- Machines of which nothing can be told apart but how many blanks there are at the ends of their tapes and
at the bottom of their stacks. -/
structure LookAlike [DecidableEq α] (blank : α) (m m' : Machine σ α) : Prop where
  state : m'.state = m.state
  stepCount : m'.stepCount = m.stepCount
  symbols : m'.symbols = m.symbols
  tapes : List.Forall₂ (fun t t' => ∃ core, Trimmed blank t.cells core ∧ Trimmed blank t'.cells core)
    m.contents.tapes m'.contents.tapes
  pushdowns : List.Forall₂
    (fun s s' => s'.items.dropWhile (· = blank) = s.items.dropWhile (· = blank))
    m.contents.pushdowns m'.contents.pushdowns

namespace Alike

variable {m m' : Machine σ α}

theorem state (h : m.Alike m') : m'.state = m.state :=
  congrArg Configuration.state h.unbounded

theorem key (h : m.Alike m') : m'.key = m.key := by
  rw [← key_unbounded h.wellFormed.marked, ← key_unbounded h.wellFormed'.marked, h.unbounded]

theorem isHalted (h : m.Alike m') : m'.isHalted = m.isHalted := by
  simp only [Machine.isHalted, h.initialized, h.initialized', h.state, h.config]

theorem live_iff (h : m.Alike m') : m'.Live ↔ m.Live :=
  live_congr (h.initialized'.trans h.initialized.symm) (by rw [h.fault]) h.isHalted

/-! ## What a call leaves -/

variable [Quoted σ] [Quoted α]

theorem fail (h : m.Alike m') (hlive : m.Live) : m.fail.Alike m'.fail where
  config := h.config
  table := h.table
  stepCount := h.stepCount
  fault := by
    show some (undefinedTransition m'.key) = some (undefinedTransition m.key)
    rw [h.key]
  unbounded := by
    rw [unbounded_fail, unbounded_fail, h.unbounded, h.config]
  initialized := h.initialized
  initialized' := h.initialized'
  wellFormed := h.wellFormed.fail hlive
  wellFormed' := h.wellFormed'.fail (h.live_iff.mpr hlive)

variable [DecidableEq α]

omit [Quoted σ] [Quoted α] in
theorem apply (h : m.Alike m') (hlive : m.Live) {a : Action σ α} (ha : a ∈ m.table.actions) :
    (m.apply a).Alike (m'.apply a) where
  config := h.config
  table := h.table
  stepCount := congrArg (· + 1) h.stepCount
  fault := h.fault
  unbounded := by
    have ha' : a ∈ m'.table.actions := h.table ▸ ha
    rw [unbounded_apply h.wellFormed h.initialized ha, unbounded_apply h.wellFormed' h.initialized' ha',
      h.unbounded, h.config]
  initialized := h.initialized
  initialized' := h.initialized'
  wellFormed := h.wellFormed.apply hlive a
  wellFormed' := h.wellFormed'.apply (h.live_iff.mpr hlive) a

/-- A call is answered alike and leaves the machines alike. -/
theorem step (h : m.Alike m') : m.step.1.Alike m'.step.1 ∧ m'.step.2 = m.step.2 := by
  by_cases hlive : m.Live
  · have hlive' := h.live_iff.mpr hlive
    have hlookup : m'.table.lookup m'.key = m.table.lookup m.key := by
      rw [h.table, h.key]
    cases ha : m.table.lookup m.key with
    | some a =>
      rw [step_of_lookup_some hlive ha, step_of_lookup_some hlive' (hlookup.trans ha), h.config]
      exact ⟨h.apply hlive (Table.mem_of_lookup ha), rfl⟩
    | none =>
      rw [step_of_lookup_none hlive ha, step_of_lookup_none hlive' (hlookup.trans ha), h.key]
      exact ⟨h.fail hlive, rfl⟩
  · have hlive' : ¬m'.Live := fun hlive' => hlive (h.live_iff.mp hlive')
    rw [step_of_not_live hlive, step_of_not_live hlive']
    have hinitialized := h.initialized'.trans h.initialized.symm
    exact ⟨h, answer_congr_of_not_live hlive hlive' hinitialized h.fault⟩

/-! ## Runs -/

theorem stepped (h : m.Alike m') (n : Nat) : (m.stepped n).Alike (m'.stepped n) := by
  induction n with
  | zero => exact h
  | succ n ih => exact ih.step.1

theorem runFrom (h : m.Alike m') (applied limit : Nat) :
    (m.runFrom applied limit).1.Alike (m'.runFrom applied limit).1 ∧
      (m'.runFrom applied limit).2 = (m.runFrom applied limit).2 := by
  induction limit generalizing applied m m' with
  | zero => exact ⟨h, rfl⟩
  | succ limit ih =>
    obtain ⟨hafter, hanswer⟩ := h.step
    unfold Machine.runFrom
    rw [h.fault, h.isHalted]
    split
    · cases hresult : m.step.2 with
      | error f =>
        have hstep : m.step = (m.step.1, .error f) := Prod.ext rfl hresult
        have hstep' : m'.step = (m'.step.1, .error f) := Prod.ext rfl (hanswer.trans hresult)
        rw [hstep, hstep']
        exact ⟨hafter, rfl⟩
      | ok p =>
        have hstep : m.step = (m.step.1, .ok p) := Prod.ext rfl hresult
        have hstep' : m'.step = (m'.step.1, .ok p) := Prod.ext rfl (hanswer.trans hresult)
        rw [hstep, hstep']
        exact ih hafter (applied + 1)
    · exact ⟨h, rfl⟩

theorem runFor (h : m.Alike m') (limit : Nat) :
    (m.runFor limit).1.Alike (m'.runFor limit).1 ∧ (m'.runFor limit).2 = (m.runFor limit).2 :=
  h.runFrom 0 limit

/-! ## What can be told -/

omit [Quoted σ] [Quoted α] in
theorem lookAlike (h : m.Alike m') : LookAlike m.config.marks.blank m m' where
  state := h.state
  stepCount := h.stepCount
  symbols := congrArg Key.read h.key
  tapes := by
    have hsame := congrArg Configuration.tapes h.unbounded
    simp only [Machine.unbounded, h.config] at hsame
    refine (map_eq_iff_forall₂.mp hsame).imp fun t t' ht => ?_
    exact ⟨_, trimmed_trim _ t.cells, Tape.trimmed_of_unbounded_eq ht.symm (trimmed_trim _ _)⟩
  pushdowns := by
    have hsame := congrArg Configuration.pushdowns h.unbounded
    simp only [Machine.unbounded, h.config] at hsame
    exact (map_eq_iff_forall₂.mp hsame).imp fun s s' hs => Stack.items_of_unbounded_eq hs

end Alike

end Machine

end TapeMachine
