import TapeMachine.Proofs.Machine.Padding
import TapeMachine.Proofs.Program.Cycles

/-!
# Programs with more blanks

A program whose tapes go on with more blanks, and whose stacks have more blanks at the bottom, is
accepted or refused as the other is, with the same fault (`Program.Pads.build_eq`): a blank is never foreign,
and only the numbers of the tapes and stacks count otherwise. The machines of the two are alike
(`Program.Pads.alike_machine`).
-/

namespace TapeMachine.Program

/-- The same program, with blanks put after the texts of its tapes and before those of its stacks. -/
inductive Pads (p : Program) : Program → Prop
  | intro {tapes pushdowns : List String} :
      List.Forall₂ (fun text text' => ∃ n, text'.toList = text.toList ++ List.replicate n p.blank)
        p.tapes tapes →
      List.Forall₂ (fun text text' => ∃ n, text'.toList = List.replicate n p.blank ++ text.toList)
        p.pushdowns pushdowns →
      Pads p { p with tapes := tapes, pushdowns := pushdowns }

/-- What is said of the symbols of texts that differ in some symbols only. -/
theorem filter_flatMap_toList_eq {keep : Char → Bool} {texts texts' : List String}
    (h : List.Forall₂ (fun text text' => text'.toList.filter keep = text.toList.filter keep)
      texts texts') :
    (texts'.flatMap String.toList).filter keep = (texts.flatMap String.toList).filter keep := by
  induction h with
  | nil => rfl
  | cons htext _ ih =>
    rw [List.flatMap_cons, List.flatMap_cons, List.filter_append, List.filter_append, htext, ih]

namespace Pads

variable {p p' : Program}

theorem config_eq (h : p.Pads p') : p'.config = p.config := by
  cases h
  rfl

theorem actions_eq (h : p.Pads p') : p'.actions = p.actions := by
  cases h
  rfl

theorem table_eq (h : p.Pads p') : p'.table = p.table := by
  cases h
  rfl

theorem length_tapes (h : p.Pads p') : p'.tapes.length = p.tapes.length := by
  cases h with
  | intro htapes _ => exact htapes.length_eq.symm

theorem length_pushdowns (h : p.Pads p') : p'.pushdowns.length = p.pushdowns.length := by
  cases h with
  | intro _ hpushdowns => exact hpushdowns.length_eq.symm

/-! ## The same faults -/

/-- A blank is no foreign symbol. -/
theorem symbolFaults_eq (h : p.Pads p') : p'.symbolFaults = p.symbolFaults := by
  obtain ⟨htapes, hpushdowns⟩ := h
  unfold symbolFaults
  cases p.alphabet with
  | none => rfl
  | some alphabet =>
    let foreign (c : Char) : Bool := ¬(c ∈ alphabet.toList ∨ c = p.blank ∨ c = p.noWrite)
    have hblanks (n : Nat) : (List.replicate n p.blank).filter foreign = [] := by
      apply List.filter_replicate_of_neg
      simp [foreign]
    have htapes' := filter_flatMap_toList_eq <| htapes.imp fun text text' ⟨n, hn⟩ => by
      show text'.toList.filter foreign = text.toList.filter foreign
      rw [hn, List.filter_append, hblanks, List.append_nil]
    have hpushdowns' := filter_flatMap_toList_eq <| hpushdowns.imp fun text text' ⟨n, hn⟩ => by
      show text'.toList.filter foreign = text.toList.filter foreign
      rw [hn, List.filter_append, hblanks, List.nil_append]
    show ((symbols _).filter foreign).map _ = (p.symbols.filter foreign).map _
    simp only [symbols, List.flatMap_append, List.filter_append, htapes', hpushdowns']

theorem violations_eq (h : p.Pads p') : p'.violations = p.violations := by
  have hmarks : p'.markFaults = p.markFaults := by
    cases h
    rfl
  have htokens : p'.tokenFaults = p.tokenFaults := by
    cases h
    rfl
  have hactionFaults : p'.actionFaults = p.actionFaults := by
    cases h
    rfl
  have htapes : p'.tapes = [] ↔ p.tapes = [] := by
    rw [← List.length_eq_zero_iff, h.length_tapes, List.length_eq_zero_iff]
  simp only [violations, hmarks, htokens, h.symbolFaults_eq, hactionFaults, h.actions_eq, htapes]

theorem shapeFault?_eq (h : p.Pads p') : p'.machine.shapeFault? = p.machine.shapeFault? := by
  funext a
  simp only [Machine.shapeFault?, machine, contents, List.length_map, h.length_tapes,
    h.length_pushdowns]

/-- What is found in a program does not depend on the blanks. -/
theorem buildThrough_eq (h : p.Pads p') (listing : Listing String Char) :
    p'.buildThrough listing = (p.buildThrough listing).map fun _ => p'.machine := by
  rw [Program.buildThrough_eq, Program.buildThrough_eq listing p, h.violations_eq, h.table_eq,
    h.shapeFault?_eq]
  cases p.violations ++ ((listing.list p.table).findSome? p.machine.shapeFault?).toList <;> rfl

/-! ## Machines that are alike -/

theorem unbounded_machine (h : p.Pads p') : p'.machine.unbounded = p.machine.unbounded := by
  obtain ⟨htapes, hpushdowns⟩ := h
  have htapes' := map_eq_iff_forall₂.mpr <| htapes.imp fun text text' ⟨n, hn⟩ => by
    show (Tape.ofList p.config.marks text'.toList).unbounded p.blank =
      (Tape.ofList p.config.marks text.toList).unbounded p.blank
    rw [hn]
    exact Tape.unbounded_ofList_append p.config.marks text.toList n
  have hpushdowns' := map_eq_iff_forall₂.mpr <| hpushdowns.imp fun text text' ⟨n, hn⟩ => by
    show (Stack.ofList p.config.marks text'.toList).unbounded p.blank =
      (Stack.ofList p.config.marks text.toList).unbounded p.blank
    rw [hn]
    exact Stack.unbounded_ofList_append p.config.marks text.toList n
  simp only [Machine.unbounded, machine, contents, List.map_map]
  exact congrArg₂ (Configuration.mk p.initial) htapes' hpushdowns'

theorem alike_machine (h : p.Pads p') (hp : p.WellFormed) (hp' : p'.WellFormed) :
    p.machine.Alike p'.machine where
  config := h.config_eq
  table := h.table_eq
  stepCount := rfl
  fault := rfl
  unbounded := h.unbounded_machine
  initialized := rfl
  initialized' := rfl
  wellFormed := wellFormed_machine hp
  wellFormed' := wellFormed_machine hp'

end Pads

end TapeMachine.Program
