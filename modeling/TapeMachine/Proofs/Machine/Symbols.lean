import TapeMachine.Proofs.Machine.WellFormed

/-!
# The symbols on tapes and stacks

A cycle treats each tape and each stack for itself: it writes a value of its rule and moves the head, it
takes the top off and pushes a value of its rule. So what these do not end, at any place, holds of every
tape and stack of a well-formed machine for good (`Machine.Keeping.after`). What they do to the symbols
is little: a write or a push brings in its value, unless that is the no-write symbol, a move at most the
blank, and taking the top off nothing.
-/

namespace TapeMachine

variable {σ α : Type}

/-! ## Symbols that an operation brings in -/

namespace Tape

/-- A move past an end adds a blank cell there, and no other move changes the cells. -/
theorem cells_move (t : Tape α) (d : Direction) :
    (t.move d).cells = t.cells ∨ (t.move d).cells = t.marks.blank :: t.cells ∨
      (t.move d).cells = t.cells ++ [t.marks.blank] := by
  cases d with
  | stay => exact .inl rfl
  | left =>
    rcases t with ⟨marks, _ | ⟨c, cs⟩, current, after⟩
    · exact .inr (.inl rfl)
    · exact .inl (by simp [move, cells])
  | right =>
    rcases t with ⟨marks, before, current, _ | ⟨c, cs⟩⟩
    · exact .inr (.inr (by simp [move, cells]))
    · exact .inl (by simp [move, cells])

theorem mem_cells_move {t : Tape α} {d : Direction} {x : α} (h : x ∈ (t.move d).cells) :
    x ∈ t.cells ∨ x = t.marks.blank := by
  rcases t.cells_move d with hcells | hcells | hcells
  · rw [hcells] at h
    exact .inl h
  · rw [hcells, List.mem_cons] at h
    exact h.symm
  · rw [hcells, List.mem_append, List.mem_singleton] at h
    exact h

variable [DecidableEq α]

theorem count_cells_move (t : Tape α) (d : Direction) {x : α} (h : t.marks.blank ≠ x) :
    (t.move d).cells.count x = t.cells.count x := by
  rcases t.cells_move d with hcells | hcells | hcells
  · rw [hcells]
  · rw [hcells, List.count_cons_of_ne h]
  · rw [hcells, List.count_append, List.count_singleton, if_neg (by simpa using h), Nat.add_zero]

theorem mem_cells_write {t : Tape α} {value x : α} (h : x ∈ (t.write value).cells) :
    x ∈ t.cells ∨ (x = value ∧ value ≠ t.marks.noWrite) := by
  by_cases hvalue : value = t.marks.noWrite
  · rw [hvalue, write_noWrite] at h
    exact .inl h
  · rw [cells_write t hvalue] at h
    rcases List.mem_or_eq_of_mem_set h with h | rfl
    · exact .inl h
    · exact .inr ⟨rfl, hvalue⟩

/-- No write leaves more no-write symbols on a tape. -/
theorem count_cells_write_le (t : Tape α) (value : α) :
    (t.write value).cells.count t.marks.noWrite ≤ t.cells.count t.marks.noWrite := by
  by_cases hvalue : value = t.marks.noWrite
  · exact Nat.le_of_eq (by rw [hvalue, write_noWrite])
  · have hhead : t.head < t.cells.length := by
      rw [length_cells]
      exact t.head_lt_length
    have hnew : (value == t.marks.noWrite) = false := by simpa using hvalue
    rw [cells_write t hvalue, List.count_set hhead, hnew]
    simp

end Tape

namespace Stack

theorem mem_items_rest {s : Stack α} {x : α} (h : x ∈ s.rest.items) : x ∈ s.items := by
  rw [items_rest] at h
  exact List.dropLast_subset _ h

theorem top_mem_or_blank (s : Stack α) : s.top ∈ s.items ∨ s.top = s.marks.blank := by
  rcases s with ⟨marks, _ | ⟨c, cs⟩⟩
  · exact .inr rfl
  · exact .inl (by simp [top, items])

variable [DecidableEq α]

theorem count_items_rest_le (s : Stack α) (x : α) : s.rest.items.count x ≤ s.items.count x := by
  rw [items_rest]
  exact (List.dropLast_sublist _).count_le x

theorem mem_items_push {s : Stack α} {value x : α} (h : x ∈ (s.push value).items) :
    x ∈ s.items ∨ (x = value ∧ value ≠ s.marks.noWrite) := by
  by_cases hvalue : value = s.marks.noWrite
  · rw [hvalue, push_noWrite] at h
    exact .inl h
  · rw [items_push s hvalue, List.mem_append, List.mem_singleton] at h
    exact h.imp_right fun hx => ⟨hx, hvalue⟩

theorem count_items_push (s : Stack α) (value : α) :
    (s.push value).items.count s.marks.noWrite = s.items.count s.marks.noWrite := by
  by_cases hvalue : value = s.marks.noWrite
  · rw [hvalue, push_noWrite]
  · rw [items_push s hvalue, List.count_append, List.count_singleton,
      if_neg (by simpa using hvalue), Nat.add_zero]

end Stack

/-! ## What holds of each tape and stack -/

/-- What holds of each tape and of each stack, by its place. -/
structure Contents.Each (c : Contents α) (P : Nat → Tape α → Prop) (Q : Nat → Stack α → Prop) :
    Prop where
  tape : ∀ i t, c.tapes[i]? = some t → P i t
  pushdown : ∀ i s, c.pushdowns[i]? = some s → Q i s

theorem Contents.Each.popAll {c : Contents α} {P : Nat → Tape α → Prop} {Q : Nat → Stack α → Prop}
    (h : c.Each P Q) (hrest : ∀ i s, Q i s → Q i s.rest) : c.popAll.Each P Q where
  tape := h.tape
  pushdown i s' hs' := by
    obtain ⟨s, hs, rfl⟩ := Option.map_eq_some_iff.mp (List.getElem?_map.symm.trans hs')
    exact hrest i s (h.pushdown i s hs)

variable [DecidableEq α]

/-- The rules of a table do not end what holds of a tape or stack with the given marks. -/
structure Table.Keeps (table : Table σ α) (marks : Marks α) (P : Nat → Tape α → Prop)
    (Q : Nat → Stack α → Prop) : Prop where
  tape : ∀ a ∈ table.actions, ∀ v ∈ a.rule.write, ∀ i t d, t.marks = marks →
    P i t → P i ((t.write v).move d)
  rest : ∀ i s, Q i s → Q i s.rest
  push : ∀ a ∈ table.actions, ∀ v ∈ a.rule.push, ∀ i s, s.marks = marks →
    Q i s → Q i (s.push v)

namespace Machine

variable [DecidableEq σ]

/-- An initialized machine whose rules do not end what holds now and would hold after a reset. -/
structure Keeping (m : Machine σ α) (P : Nat → Tape α → Prop) (Q : Nat → Stack α → Prop) : Prop where
  initialized : m.isInitialized = true
  wellFormed : m.WellFormed
  keeps : m.table.Keeps m.config.marks P Q
  contents : m.contents.Each P Q
  stored : ∀ c, m.stored = some c → c.Each P Q

namespace Keeping

variable {m m' : Machine σ α} {P : Nat → Tape α → Prop} {Q : Nat → Stack α → Prop}

theorem apply (h : m.Keeping P Q) {a : Action σ α} (ha : a ∈ m.table.actions) :
    (m.apply a).contents.Each P Q := by
  have hexact := h.wellFormed.appliesExactly h.initialized ha
  obtain ⟨hntapes, hnpushdowns⟩ := Prod.mk.inj hexact.shape
  constructor
  · intro i t' ht'
    have hi : i < m.contents.tapes.length := by
      rw [← hntapes]
      exact (List.getElem?_eq_some_iff.mp ht').1
    have ht := List.getElem?_eq_getElem hi
    have hmarks := h.wellFormed.marked.tapes _ (List.mem_of_getElem? ht)
    obtain ⟨v, d, t'', hv, -, ht'', hcycle, -⟩ := hexact.tape i _ ht
    cases ht'.symm.trans ht''
    rw [hcycle]
    exact h.keeps.tape a ha v (List.mem_of_getElem? hv) i _ d hmarks (h.contents.tape i _ ht)
  · intro i s' hs'
    have hi : i < m.contents.pushdowns.length := by
      rw [← hnpushdowns]
      exact (List.getElem?_eq_some_iff.mp hs').1
    have hs := List.getElem?_eq_getElem hi
    have hmarks := h.wellFormed.marked.pushdowns _ (List.mem_of_getElem? hs)
    obtain ⟨v, hv, hs''⟩ := hexact.pushdown i _ hs
    cases hs'.symm.trans hs''
    have hrest := h.keeps.rest i _ (h.contents.pushdown i _ hs)
    exact h.keeps.push a ha v (List.mem_of_getElem? hv) i _ hmarks hrest

variable [Quoted σ] [Quoted α]

theorem fail (h : m.Keeping P Q) : m.fail.contents.Each P Q := by
  show m.spoiled.Each P Q
  unfold spoiled
  cases m.config.mode with
  | consume => exact h.contents.popAll h.keeps.rest
  | atomic => exact h.contents

theorem change (h : m.Keeping P Q) (hchange : Change m m') : m'.Keeping P Q := by
  have hwellFormed := h.wellFormed.change hchange
  rcases hchange.cases_of_initialized h.initialized with
    ⟨a, -, ha, rfl⟩ | ⟨-, -, rfl⟩ | ⟨c, hc, rfl⟩
  · exact ⟨h.initialized, hwellFormed, h.keeps, h.apply (Table.mem_of_lookup ha), h.stored⟩
  · exact ⟨h.initialized, hwellFormed, h.keeps, h.fail, h.stored⟩
  · exact ⟨h.initialized, hwellFormed, h.keeps, h.stored c hc, h.stored⟩

/-- It holds after every history. -/
theorem after (h : m.Keeping P Q) (ops : List (Operation σ α)) : (m.after ops).Keeping P Q :=
  after_induction ops (fun _ _ => change) h

end Keeping

end Machine

end TapeMachine
