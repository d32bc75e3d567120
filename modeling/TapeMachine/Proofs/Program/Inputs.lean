import TapeMachine.Proofs.Program.Alphabet

/-!
# Inputs for a program

The inputs take the place of the first tapes of a program, and of nothing else. When the program has been built
before, all its checks but one are passed again, whatever the inputs are: only a symbol of an input can be
outside the alphabet (`Program.build_withInputs`). The main statement, `inputs_replace_tapes`, says what the call
does to the program, when the program can still be built and what is reported otherwise, and that the machine
is the same but for its first tapes (`Machine.Refilled`).
-/

namespace TapeMachine

/-- The second machine is as the first but for its first tapes, which are made from the inputs. -/
structure Machine.Refilled (m m' : Machine String Char) (inputs : List String) : Prop where
  rest : m' = { m with contents := m'.contents, stored := some m'.contents }
  pushdowns : m'.contents.pushdowns = m.contents.pushdowns
  tapes : ∀ i : Nat, m'.contents.tapes[i]? =
    if i < inputs.length then inputs[i]?.map fun text => .ofList m.config.marks text.toList
    else m.contents.tapes[i]?

namespace Program

instance (p : Program) (c : Char) : Decidable (p.Admits c) :=
  match h : p.alphabet with
  | none => .isTrue fun alphabet halphabet => by
    rw [h] at halphabet
    cases halphabet
  | some alphabet =>
    decidable_of_iff (c ∈ alphabet.toList ∨ c = p.blank ∨ c = p.noWrite) <| by
      simp [Admits, h]

/-- The program with inputs in place of its first tapes. -/
def withInputs (p : Program) (inputs : List String) : Program :=
  { p with tapes := inputs ++ p.tapes.drop inputs.length }

variable {p : Program} {inputs : List String}

/-! ## The call -/

theorem setTapes_of_le (h : inputs.length ≤ p.tapes.length) :
    p.setTapes inputs = (p.withInputs inputs, .ok ()) := by
  unfold setTapes
  rw [if_neg (Nat.not_lt.mpr h)]
  rfl

theorem setTapes_of_lt (h : p.tapes.length < inputs.length) :
    p.setTapes inputs =
      (p, .error (.invalidProgram (.tooManyInputs inputs.length p.tapes.length))) := by
  unfold setTapes
  rw [if_pos h]

theorem length_tapes_withInputs (h : inputs.length ≤ p.tapes.length) :
    (p.withInputs inputs).tapes.length = p.tapes.length := by
  simp only [withInputs, List.length_append, List.length_drop]
  omega

theorem getElem?_tapes_withInputs (p : Program) (inputs : List String) (i : Nat) :
    (p.withInputs inputs).tapes[i]? = if i < inputs.length then inputs[i]? else p.tapes[i]? := by
  show (inputs ++ p.tapes.drop inputs.length)[i]? = _
  rw [List.getElem?_append]
  by_cases hi : i < inputs.length
  · rw [if_pos hi, if_pos hi]
  · rw [if_neg hi, if_neg hi, List.getElem?_drop, Nat.add_sub_cancel' (Nat.not_lt.mp hi)]

/-! ## The building -/

/-- The faults of the symbols are those that the program does not admit. -/
theorem symbolFaults_eq_filter (p : Program) :
    p.symbolFaults =
      (p.symbols.filter fun c => ¬p.Admits c).map fun c => .invalidProgram (.foreignSymbol c) := by
  unfold symbolFaults
  cases h : p.alphabet with
  | none => simp [Admits, h]
  | some alphabet => simp [Admits, h]

/-- Of a program that has been checked only the symbols of the inputs can be foreign. -/
theorem symbolFaults_withInputs (hp : p.WellFormed) (inputs : List String) :
    (p.withInputs inputs).symbolFaults =
      ((inputs.flatMap String.toList).filter fun c => ¬p.Admits c).map fun c =>
        .invalidProgram (.foreignSymbol c) := by
  let others := p.tapes.drop inputs.length ++ p.pushdowns ++
    p.actions.flatMap fun a => [a.read, a.pop, a.write, a.push]
  have hsymbols : (p.withInputs inputs).symbols =
      inputs.flatMap String.toList ++ others.flatMap String.toList := by
    simp only [symbols, withInputs, others, List.append_assoc, List.flatMap_append]
  have hothers : ((others.flatMap String.toList).filter fun c => ¬p.Admits c) = [] := by
    rw [List.filter_eq_nil_iff]
    intro c hc
    obtain ⟨text, htext, hc⟩ := List.mem_flatMap.mp hc
    have hmem : c ∈ p.symbols := by
      refine List.mem_flatMap.mpr ⟨text, ?_, hc⟩
      simp only [others, List.append_assoc, List.mem_append] at htext ⊢
      exact htext.imp_left List.mem_of_mem_drop
    simpa using hp.admits hmem
  have hadmits : ∀ c, (p.withInputs inputs).Admits c ↔ p.Admits c := fun _ => Iff.rfl
  simp only [symbolFaults_eq_filter, hadmits, hsymbols, List.filter_append, hothers, List.append_nil]

/-- All other checks are passed again. -/
theorem build_withInputs (hp : p.WellFormed) (h : inputs.length ≤ p.tapes.length) :
    (p.withInputs inputs).build =
      checked (((inputs.flatMap String.toList).filter fun c => ¬p.Admits c).map fun c =>
        .invalidProgram (.foreignSymbol c)) (p.withInputs inputs).machine := by
  have hlength := length_tapes_withInputs h
  have htapes : (p.withInputs inputs).tapes ≠ [] := by
    intro hnil
    rw [hnil] at hlength
    exact hp.tapes (List.length_eq_zero_iff.mp hlength.symm)
  have hmarks : (p.withInputs inputs).markFaults = [] := markFaults_eq_nil_iff.mpr hp.marks
  have htokens : (p.withInputs inputs).tokenFaults = [] := tokenFaults_eq_nil_iff.mpr hp.tokens
  have hactions : (p.withInputs inputs).actions.flatMap (p.withInputs inputs).actionFaults = [] := by
    rw [List.flatMap_eq_nil_iff]
    intro a ha
    obtain ⟨hspelled, hwrite, hdirections, hpush⟩ := hp.legible a ha
    exact actionFaults_eq_nil_iff.mpr ⟨hspelled, hwrite, hdirections, hpush⟩
  have hfits : ∀ a ∈ (p.withInputs inputs).actions, (p.withInputs inputs).misfit? a = none := by
    intro a ha
    rw [misfit?_eq_none_iff, hlength]
    exact hp.fits a ha
  have hsome : ¬(p.withInputs inputs).actions = [] := hp.actions
  rw [build, buildThrough_of_fits hfits, violations, hmarks, htokens, hactions,
    symbolFaults_withInputs hp, if_neg htapes, if_neg hsome]
  simp only [List.nil_append, List.append_nil]

/-- The program can be built again if it admits all symbols of the inputs, -/
theorem exists_build_withInputs_iff (hp : p.WellFormed) (h : inputs.length ≤ p.tapes.length) :
    (∃ m, (p.withInputs inputs).build = .ok m) ↔
      ∀ text ∈ inputs, ∀ c ∈ text.toList, p.Admits c := by
  rw [build_withInputs hp h]
  simp only [checked_eq_ok_iff, exists_and_left, exists_eq, and_true, List.map_eq_nil_iff,
    List.filter_eq_nil_iff, List.mem_flatMap, decide_eq_true_eq, not_not]
  constructor
  · intro hall text htext c hc
    exact hall c ⟨text, htext, hc⟩
  · rintro hall c ⟨text, htext, hc⟩
    exact hall text htext c hc

/-- and is refused with the first that it does not admit otherwise. -/
theorem build_withInputs_eq_error_iff (hp : p.WellFormed) (h : inputs.length ≤ p.tapes.length)
    {f : Fault} :
    (p.withInputs inputs).build = .error f ↔ ∃ before c after,
      inputs.flatMap String.toList = before ++ c :: after ∧ (∀ x ∈ before, p.Admits x) ∧
        ¬p.Admits c ∧ f = .invalidProgram (.foreignSymbol c) := by
  rw [build_withInputs hp h, checked_eq_error_iff, List.head?_map, List.head?_filter,
    Option.map_eq_some_iff]
  simp only [List.find?_eq_some_iff_append, decide_not, Bool.not_not, Bool.not_eq_true',
    decide_eq_true_eq, decide_eq_false_iff_not]
  constructor
  · rintro ⟨c, ⟨hc, before, after, hinputs, hbefore⟩, rfl⟩
    exact ⟨before, c, after, hinputs, hbefore, hc, rfl⟩
  · rintro ⟨before, c, after, hinputs, hbefore, hc, rfl⟩
    exact ⟨c, ⟨hc, before, after, hinputs, hbefore⟩, rfl⟩

theorem refilled_machine (p : Program) (inputs : List String) :
    p.machine.Refilled (p.withInputs inputs).machine inputs where
  rest := rfl
  pushdowns := rfl
  tapes i := by
    show ((p.withInputs inputs).tapes.map _)[i]? = if _ then _ else (p.tapes.map _)[i]?
    rw [List.getElem?_map, List.getElem?_map, getElem?_tapes_withInputs]
    split <;> rfl

/-- A program refuses more inputs than it has tapes and stays as it is; otherwise the inputs take the place of
its first tapes, and of nothing else. If it could be built before, it still can exactly if it admits all
symbols of the inputs; otherwise the first that it does not admit is reported. The machine is the one
from before but for its first tapes. -/
theorem inputs_replace_tapes (p : Program) (inputs : List String) :
    ((∃ f, (p.setTapes inputs).2 = .error f) ↔ p.tapes.length < inputs.length) ∧
      (∀ f, (p.setTapes inputs).2 = .error f → (p.setTapes inputs).1 = p ∧
        f = .invalidProgram (.tooManyInputs inputs.length p.tapes.length)) ∧
      ∀ q, p.setTapes inputs = (q, .ok ()) →
        q = { p with tapes := q.tapes } ∧ q.tapes.length = p.tapes.length ∧
          (∀ i : Nat, q.tapes[i]? = if i < inputs.length then inputs[i]? else p.tapes[i]?) ∧
          ∀ m, p.build = .ok m →
            ((∃ m', q.build = .ok m') ↔ ∀ text ∈ inputs, ∀ c ∈ text.toList, p.Admits c) ∧
            (∀ f, q.build = .error f ↔ ∃ before c after,
              inputs.flatMap String.toList = before ++ c :: after ∧ (∀ x ∈ before, p.Admits x) ∧
                ¬p.Admits c ∧ f = .invalidProgram (.foreignSymbol c)) ∧
            ∀ m', q.build = .ok m' → m.Refilled m' inputs := by
  rcases Nat.lt_or_ge p.tapes.length inputs.length with hmany | hfew
  · rw [setTapes_of_lt hmany]
    refine ⟨⟨fun _ => hmany, fun _ => ⟨_, rfl⟩⟩, ?_, ?_⟩
    · intro f hf
      cases hf
      exact ⟨rfl, rfl⟩
    · intro q hq
      cases hq
  · rw [setTapes_of_le hfew]
    refine ⟨⟨?_, fun hmany => absurd hfew (Nat.not_le.mpr hmany)⟩, ?_, ?_⟩
    · rintro ⟨f, hf⟩
      cases hf
    · intro f hf
      cases hf
    · intro q hq
      cases hq
      refine ⟨rfl, length_tapes_withInputs hfew, getElem?_tapes_withInputs p inputs, ?_⟩
      intro m hbuild
      obtain ⟨hp, rfl⟩ := build_eq_ok_iff.mp hbuild
      refine ⟨exists_build_withInputs_iff hp hfew,
        fun f => build_withInputs_eq_error_iff hp hfew, ?_⟩
      intro m' hm'
      rw [build_withInputs hp hfew] at hm'
      rw [(checked_eq_ok_iff.mp hm').2]
      exact refilled_machine p inputs

end Program

end TapeMachine
