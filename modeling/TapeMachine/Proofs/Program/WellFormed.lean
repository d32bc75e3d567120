import TapeMachine.Proofs.Program.Building

/-!
# Well-formed programs

A program is well-formed if seven things hold of what is written in it (`Program.WellFormed`), none of
which mentions a machine. The main statement, `build_accepts_wellFormed`, says that exactly these
programs have a machine, and which fault is reported of any other: the first of its violations, or, if
there are none, that some key does not fit the numbers of tapes and stacks. A table lists its actions
in no particular order; all this holds of every order (`Listing`), and only which of several such keys is
reported depends on it.
-/

namespace TapeMachine.Program

/-- An action whose directions can be read and whose parts have the right numbers of values. -/
structure Legible (p : Program) (a : ActionText) : Prop where
  spelled : ∀ c ∈ a.tokens, c ∈ p.spellings
  write : a.write.length = a.read.length
  directions : a.tokens.length = a.read.length
  push : a.push.length = a.pop.length

/-- What has to hold of a program for it to describe a machine. -/
structure WellFormed (p : Program) : Prop where
  marks : p.blank ≠ p.noWrite
  tokens : ∀ own, p.directionTokens = some own →
    (∀ c ∈ own.all, Direction.isSeparator c = false) ∧ own.all.Nodup
  symbols : ∀ alphabet, p.alphabet = some alphabet →
    ∀ c ∈ p.symbols, c ∈ alphabet.toList ∨ c = p.blank ∨ c = p.noWrite
  legible : ∀ a ∈ p.actions, p.Legible a
  tapes : p.tapes ≠ []
  actions : p.actions ≠ []
  /-- One symbol is read per tape and one is popped per stack. -/
  fits : ∀ a ∈ p.actions, a.read.length = p.tapes.length ∧ a.pop.length = p.pushdowns.length

variable {p : Program} {a : ActionText}

/-! ## Programs without violations -/

theorem markFaults_eq_nil_iff : p.markFaults = [] ↔ p.blank ≠ p.noWrite := by
  simp [markFaults]

theorem tokenFaults_eq_nil_iff :
    p.tokenFaults = [] ↔ ∀ own, p.directionTokens = some own →
      (∀ c ∈ own.all, Direction.isSeparator c = false) ∧ own.all.Nodup := by
  unfold tokenFaults
  cases p.directionTokens with
  | none => simp
  | some own => simp [DirectionTokens.faults]

theorem symbolFaults_eq_nil_iff :
    p.symbolFaults = [] ↔ ∀ alphabet, p.alphabet = some alphabet →
      ∀ c ∈ p.symbols, c ∈ alphabet.toList ∨ c = p.blank ∨ c = p.noWrite := by
  unfold symbolFaults
  cases p.alphabet with
  | none => simp
  | some alphabet => simp [or_iff_not_imp_left]

theorem actionFaults_eq_nil_iff : p.actionFaults a = [] ↔ p.Legible a := by
  simp only [actionFaults, List.append_eq_nil_iff, List.map_eq_nil_iff, List.filter_eq_nil_iff,
    decide_eq_true_eq, not_not, Option.toList_eq_nil_iff, arityFault?_eq_none_iff]
  constructor
  · rintro ⟨hspelled, ⟨hwrite, hdirections⟩, hpush⟩
    exact ⟨hspelled, hwrite.symm, hdirections.symm, hpush.symm⟩
  · rintro ⟨hspelled, hwrite, hdirections, hpush⟩
    exact ⟨hspelled, ⟨hwrite.symm, hdirections.symm⟩, hpush.symm⟩

theorem misfit?_eq_none_iff :
    p.misfit? a = none ↔
      a.read.length = p.tapes.length ∧ a.pop.length = p.pushdowns.length := by
  simp only [misfit?, Option.orElse_eq_orElse, Option.orElse_eq_or, Option.or_eq_none_iff,
    arityFault?_eq_none_iff]
  constructor
  · rintro ⟨hread, hpop⟩
    exact ⟨hread.symm, hpop.symm⟩
  · rintro ⟨hread, hpop⟩
    exact ⟨hread.symm, hpop.symm⟩

/-- A well-formed program has no violations, and all its keys fit. -/
theorem wellFormed_iff :
    p.WellFormed ↔ p.violations = [] ∧ ∀ a ∈ p.actions, p.misfit? a = none := by
  have hviolations : p.violations = [] ↔
      p.markFaults = [] ∧ p.tokenFaults = [] ∧ p.symbolFaults = [] ∧
        (∀ a ∈ p.actions, p.actionFaults a = []) ∧ p.tapes ≠ [] ∧ p.actions ≠ [] := by
    simp [violations]
  simp only [hviolations, markFaults_eq_nil_iff, tokenFaults_eq_nil_iff, symbolFaults_eq_nil_iff,
    actionFaults_eq_nil_iff, misfit?_eq_none_iff]
  constructor
  · rintro ⟨hmarks, htokens, hsymbols, hlegible, htapes, hactions, hfits⟩
    exact ⟨⟨hmarks, htokens, hsymbols, hlegible, htapes, hactions⟩, hfits⟩
  · rintro ⟨⟨hmarks, htokens, hsymbols, hlegible, htapes, hactions⟩, hfits⟩
    exact ⟨hmarks, htokens, hsymbols, hlegible, htapes, hactions, hfits⟩

/-! ## Keys that do not fit -/

/-- Whether an action of the table fits depends on its key, which is that of an action of the program. -/
theorem shapeFault?_machine {b : Action String Char} (h : b.rule.key = a.key) :
    p.machine.shapeFault? b = p.misfit? a := by
  simp [Machine.shapeFault?, misfit?, h, machine, contents, ActionText.key, String.length_toList]

theorem findSome?_table_eq_none_iff (listing : Listing String Char) :
    (listing.list p.table).findSome? p.machine.shapeFault? = none ↔
      ∀ a ∈ p.actions, p.misfit? a = none := by
  simp only [List.findSome?_eq_none_iff, (listing.perm p.table).mem_iff]
  constructor
  · intro h a ha
    obtain ⟨b, hb, hkey⟩ := exists_mem_table_iff.mpr ⟨a, ha, rfl⟩
    rw [← shapeFault?_machine hkey]
    exact h b hb
  · intro h b hb
    obtain ⟨a, ha, hkey⟩ := exists_mem_table_iff.mp ⟨b, hb, rfl⟩
    rw [shapeFault?_machine hkey.symm]
    exact h a ha

theorem exists_misfit_of_findSome? {listing : Listing String Char} {f : Fault}
    (h : (listing.list p.table).findSome? p.machine.shapeFault? = some f) :
    ∃ a ∈ p.actions, p.misfit? a = some f := by
  obtain ⟨b, hb, hf⟩ := List.exists_of_findSome?_eq_some h
  have hmem : b ∈ p.table.actions := (listing.perm p.table).mem_iff.mp hb
  obtain ⟨a, ha, hkey⟩ := exists_mem_table_iff.mp ⟨b, hmem, rfl⟩
  rw [shapeFault?_machine hkey.symm] at hf
  exact ⟨a, ha, hf⟩

/-! ## Acceptance -/

/-- Where all keys fit, it does not matter in which order they are gone through. -/
theorem buildThrough_of_fits (h : ∀ a ∈ p.actions, p.misfit? a = none)
    (listing : Listing String Char) : p.buildThrough listing = checked p.violations p.machine := by
  rw [buildThrough_eq, (findSome?_table_eq_none_iff listing).mpr h, Option.toList_none,
    List.append_nil]

theorem buildThrough_eq_ok_iff {listing : Listing String Char} {m : Machine String Char} :
    p.buildThrough listing = .ok m ↔ p.WellFormed ∧ m = p.machine := by
  rw [buildThrough_eq, checked_eq_ok_iff, List.append_eq_nil_iff, Option.toList_eq_nil_iff,
    findSome?_table_eq_none_iff, ← wellFormed_iff]

theorem build_eq_ok_iff {m : Machine String Char} :
    p.build = .ok m ↔ p.WellFormed ∧ m = p.machine :=
  buildThrough_eq_ok_iff

/-- A program has a machine exactly if it is well-formed. Of the others, those with violations are
refused with the first of them, and those without with an action whose key does not fit. -/
theorem build_accepts_wellFormed (listing : Listing String Char) (p : Program) :
    ((∃ m, p.buildThrough listing = .ok m) ↔ p.WellFormed) ∧
      (∀ f, p.violations.head? = some f → p.buildThrough listing = .error f) ∧
      (p.violations = [] → ¬p.WellFormed →
        ∃ a ∈ p.actions, ∃ f, p.misfit? a = some f ∧ p.buildThrough listing = .error f) := by
  refine ⟨?_, ?_, ?_⟩
  · constructor
    · rintro ⟨m, hbuild⟩
      exact (buildThrough_eq_ok_iff.mp hbuild).1
    · intro h
      exact ⟨p.machine, buildThrough_eq_ok_iff.mpr ⟨h, rfl⟩⟩
  · intro f hf
    rw [buildThrough_eq, checked_eq_error_iff, List.head?_append, hf]
    rfl
  · intro hviolations hp
    cases hmisfit : (listing.list p.table).findSome? p.machine.shapeFault? with
    | none =>
      have hfits := (findSome?_table_eq_none_iff listing).mp hmisfit
      exact absurd (wellFormed_iff.mpr ⟨hviolations, hfits⟩) hp
    | some f =>
      obtain ⟨a, ha, hf⟩ := exists_misfit_of_findSome? hmisfit
      refine ⟨a, ha, f, hf, ?_⟩
      rw [buildThrough_eq, hviolations, hmisfit]
      rfl

end TapeMachine.Program
