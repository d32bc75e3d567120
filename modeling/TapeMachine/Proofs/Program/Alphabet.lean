import TapeMachine.Proofs.Machine.Symbols
import TapeMachine.Proofs.Program.Cycles

/-!
# The alphabet of a program

The symbols of a program are checked once, before its machine is built; the machine checks none. The main
statement, `symbols_after_build`, says that this is enough: whatever is done with the machine, its tapes and
stacks have no symbols but those that the program may use, and none of them has more no-write symbols than
the text that it was made from. Both need that the two marks differ, which is checked at the same time.
-/

namespace TapeMachine.Program

/-- A symbol that a program may use: one of its alphabet or a mark, or any if it has no alphabet. -/
def Admits (p : Program) (c : Char) : Prop :=
  ∀ alphabet, p.alphabet = some alphabet → c ∈ alphabet.toList ∨ c = p.blank ∨ c = p.noWrite

/-- Symbols that a program may use, with no more no-write symbols among them than in a text. -/
structure KeepsTo (p : Program) (text : String) (symbols : List Char) : Prop where
  admits : ∀ c ∈ symbols, p.Admits c
  count_noWrite_le : symbols.count p.noWrite ≤ text.toList.count p.noWrite

/-- A tape at its place that keeps to the text for it. -/
def TapeKeepsTo (p : Program) (i : Nat) (t : Tape Char) : Prop :=
  ∃ text, p.tapes[i]? = some text ∧ p.KeepsTo text t.cells

/-- A stack at its place that keeps to the text for it. -/
def StackKeepsTo (p : Program) (i : Nat) (s : Stack Char) : Prop :=
  ∃ text, p.pushdowns[i]? = some text ∧ p.KeepsTo text s.items

variable {p : Program}

theorem admits_blank (p : Program) : p.Admits p.blank :=
  fun _ _ => .inr (.inl rfl)

theorem WellFormed.admits (h : p.WellFormed) {c : Char} (hc : c ∈ p.symbols) : p.Admits c :=
  fun alphabet halphabet => h.symbols alphabet halphabet c hc

/-! ## What is checked -/

theorem mem_symbols_of_tape {text : String} {c : Char} (htext : text ∈ p.tapes)
    (hc : c ∈ text.toList) : c ∈ p.symbols := by
  refine List.mem_flatMap.mpr ⟨text, ?_, hc⟩
  simp [htext]

theorem mem_symbols_of_pushdown {text : String} {c : Char} (htext : text ∈ p.pushdowns)
    (hc : c ∈ text.toList) : c ∈ p.symbols := by
  refine List.mem_flatMap.mpr ⟨text, ?_, hc⟩
  simp [htext]

/-- The values that a rule of the table writes and pushes have been checked. -/
theorem mem_symbols_of_rule {a : Action String Char} (ha : a ∈ p.table.actions) {c : Char}
    (hc : c ∈ a.rule.write ∨ c ∈ a.rule.push) : c ∈ p.symbols := by
  obtain ⟨text, htext, hrule⟩ := exists_ruleOf_of_mem_table ha
  rw [hrule] at hc
  have hpart (part : String) (hpart : part ∈ [text.read, text.pop, text.write, text.push])
      (hc : c ∈ part.toList) : c ∈ p.symbols := by
    refine List.mem_flatMap.mpr ⟨part, ?_, hc⟩
    exact List.mem_append_right _ (List.mem_flatMap.mpr ⟨text, htext, hpart⟩)
  rcases hc with hc | hc
  · exact hpart text.write (by simp) hc
  · exact hpart text.push (by simp) hc

/-! ## What cycles keep -/

/-- A cycle brings in nothing but checked symbols, blanks among them, and no no-write symbol. -/
theorem keeps_table (h : p.WellFormed) :
    p.table.Keeps p.config.marks p.TapeKeepsTo p.StackKeepsTo where
  tape := by
    rintro a ha v hv i t d hmarks ⟨text, htext, hadmits, hcount⟩
    have hnoWrite : t.marks.noWrite = p.noWrite := by
      rw [hmarks]
      rfl
    have hblank : (t.write v).marks.blank = p.blank := by
      rw [Tape.marks_write, hmarks]
      rfl
    refine ⟨text, htext, ?_, ?_⟩
    · intro c hc
      rcases Tape.mem_cells_move hc with hc | rfl
      · rcases Tape.mem_cells_write hc with hc | ⟨rfl, -⟩
        · exact hadmits c hc
        · exact h.admits (mem_symbols_of_rule ha (.inl hv))
      · rw [hblank]
        exact p.admits_blank
    · have hwrite := t.count_cells_write_le v
      rw [hnoWrite] at hwrite
      rw [Tape.count_cells_move _ _ (by rw [hblank]; exact h.marks)]
      exact Nat.le_trans hwrite hcount
  rest := by
    rintro i s ⟨text, htext, hadmits, hcount⟩
    exact ⟨text, htext, fun c hc => hadmits c (Stack.mem_items_rest hc),
      Nat.le_trans (s.count_items_rest_le _) hcount⟩
  push := by
    rintro a ha v hv i s hmarks ⟨text, htext, hadmits, hcount⟩
    have hnoWrite : s.marks.noWrite = p.noWrite := by
      rw [hmarks]
      rfl
    refine ⟨text, htext, ?_, ?_⟩
    · intro c hc
      rcases Stack.mem_items_push hc with hc | ⟨rfl, -⟩
      · exact hadmits c hc
      · exact h.admits (mem_symbols_of_rule ha (.inr hv))
    · have hpush := s.count_items_push v
      rw [hnoWrite] at hpush
      rw [hpush]
      exact hcount

/-- The contents that a program describes keep to its texts. -/
theorem each_contents (h : p.WellFormed) : p.contents.Each p.TapeKeepsTo p.StackKeepsTo where
  tape i t ht := by
    obtain ⟨text, htext, rfl⟩ := Option.map_eq_some_iff.mp (List.getElem?_map.symm.trans ht)
    have hadmits : ∀ c ∈ text.toList, p.Admits c := fun c hc =>
      h.admits (mem_symbols_of_tape (List.mem_of_getElem? htext) hc)
    refine ⟨text, htext, ?_⟩
    cases hchars : text.toList with
    | nil =>
      -- the one cell of an empty tape is a blank, which is no no-write symbol
      refine ⟨?_, ?_⟩
      · intro c hc
        rw [Tape.cells_ofList_nil, List.mem_singleton] at hc
        rw [hc]
        exact p.admits_blank
      · have hblank : (p.config.marks.blank == p.noWrite) = false := beq_false_of_ne h.marks
        rw [Tape.cells_ofList_nil, List.count_singleton, hblank]
        exact Nat.zero_le _
    | cons c cs =>
      rw [hchars] at hadmits
      rw [Tape.cells_ofList_cons]
      exact ⟨hadmits, Nat.le_of_eq (by rw [hchars])⟩
  pushdown i s hs := by
    obtain ⟨text, htext, rfl⟩ := Option.map_eq_some_iff.mp (List.getElem?_map.symm.trans hs)
    refine ⟨text, htext, ?_⟩
    rw [Stack.items_ofList]
    exact ⟨fun c hc => h.admits (mem_symbols_of_pushdown (List.mem_of_getElem? htext) hc),
      Nat.le_refl _⟩

theorem keeping_machine (h : p.WellFormed) : p.machine.Keeping p.TapeKeepsTo p.StackKeepsTo where
  initialized := rfl
  wellFormed := wellFormed_machine h
  keeps := keeps_table h
  contents := each_contents h
  stored := by
    rintro c ⟨⟩
    exact each_contents h

/-- Where the text has no no-write symbol, there is none. -/
theorem KeepsTo.noWrite_not_mem {text : String} {symbols : List Char} (h : p.KeepsTo text symbols)
    (hnone : p.noWrite ∉ text.toList) : p.noWrite ∉ symbols := by
  have hcount := h.count_noWrite_le
  rw [List.count_eq_zero.mpr hnone] at hcount
  exact List.count_eq_zero.mp (Nat.le_zero.mp hcount)

/-- Whatever is done with the machine of a program, each tape and each stack has only symbols that the
program may use, the one under the head and the one to be popped or peeked among them, and no more
no-write symbols than the text that it was made from; so it has none if the text has none. -/
theorem symbols_after_build {p : Program} {m : Machine String Char} (hbuild : p.build = .ok m)
    (ops : List (Operation String Char)) :
    (m.after ops).contents.shape = (p.tapes.length, p.pushdowns.length) ∧
      (∀ (i : Nat) (t : Tape Char) (text : String),
        (m.after ops).contents.tapes[i]? = some t → p.tapes[i]? = some text →
          (∀ c ∈ t.cells, p.Admits c) ∧ p.Admits t.current ∧
            t.cells.count p.noWrite ≤ text.toList.count p.noWrite ∧
            (p.noWrite ∉ text.toList → p.noWrite ∉ t.cells)) ∧
      ∀ (i : Nat) (s : Stack Char) (text : String),
        (m.after ops).contents.pushdowns[i]? = some s → p.pushdowns[i]? = some text →
          (∀ c ∈ s.items, p.Admits c) ∧ p.Admits s.top ∧ p.Admits s.pop.1 ∧
            s.items.count p.noWrite ≤ text.toList.count p.noWrite ∧
            (p.noWrite ∉ text.toList → p.noWrite ∉ s.items) := by
  obtain ⟨hp, rfl⟩ := build_eq_ok_iff.mp hbuild
  have hafter := (keeping_machine hp).after ops
  have hruns := (runs_machine hp).after ops
  refine ⟨?_, ?_, ?_⟩
  · have hstored := Machine.stored_after (m := p.machine) rfl ops
    rw [(hruns.wellFormed.shaped p.contents hstored).shape]
    simp [Contents.shape, contents]
  · intro i t text ht htext
    obtain ⟨text', htext', hkeeps⟩ := hafter.contents.tape i t ht
    cases htext.symm.trans htext'
    have hcurrent : t.current ∈ t.cells := List.mem_of_getElem? t.cells_head
    exact ⟨hkeeps.admits, hkeeps.admits _ hcurrent, hkeeps.count_noWrite_le,
      hkeeps.noWrite_not_mem⟩
  · intro i s text hs htext
    obtain ⟨text', htext', hkeeps⟩ := hafter.contents.pushdown i s hs
    cases htext.symm.trans htext'
    have htop : p.Admits s.top := by
      rcases s.top_mem_or_blank with htop | htop
      · exact hkeeps.admits _ htop
      · rw [htop, hruns.wellFormed.marked.pushdowns s (List.mem_of_getElem? hs), hruns.config]
        exact p.admits_blank
    exact ⟨hkeeps.admits, htop, htop, hkeeps.count_noWrite_le, hkeeps.noWrite_not_mem⟩

/-- A no-write symbol is overwritten, never written, and pushed in vain; the head leaves the text and the
stack is popped when it is empty. -/
theorem symbols_after_build_overwritten :
    let p : Program := {
      initial := "a", alphabet := some "xy", tapes := ["*x"], pushdowns := ["y"]
      actions := [⟨"a", "*", "y", "x", "*", ">", "b"⟩, ⟨"b", "x", "_", "*", "x", ">", "halt"⟩] }
    ∃ m, p.build = .ok m ∧
      (m.after [.step]).contents.pushdowns.map Stack.items = [[]] ∧
      (m.after [.step, .runFor 5]).contents.tapes.map Tape.cells = [['x', 'x', '_']] ∧
      ∀ (t : Tape Char), (m.after [.step, .runFor 5]).contents.tapes[0]? = some t →
        (∀ c ∈ t.cells, p.Admits c) ∧ t.cells.count '*' ≤ 1 := by
  intro p
  have hbuild : p.build = .ok p.machine := rfl
  have hafter := symbols_after_build hbuild [.step, .runFor 5]
  refine ⟨p.machine, hbuild, by decide, by decide, fun t ht => ?_⟩
  obtain ⟨hadmits, -, hcount, -⟩ := hafter.2.1 0 t "*x" ht rfl
  exact ⟨hadmits, hcount⟩

end TapeMachine.Program
