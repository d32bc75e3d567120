import TapeMachine.Proofs.Machine.Operation
import TapeMachine.Proofs.Tape.Strip

/-!
# Well-formed machines

What holds of a machine after every history of calls, refused and failed ones included
(`Machine.WellFormed`): its tapes and stacks carry the marks of its configuration, its rules are
balanced, nothing has happened yet while it is being built, and once initialized it keeps the shape that
every rule was checked against. Registration, initialization and the cycle each contribute a part of it;
`WellFormed.change` is the step and `after_induction` the run.

In a well-formed machine a cycle treats every tape and every stack once (`Machine.AppliesExactly`):
no item lacks its value, no value lacks its item, and no cell is missed.
-/

namespace TapeMachine

variable {σ α : Type}

namespace Contents

/-- The numbers of tapes and stacks. -/
def shape (c : Contents α) : Nat × Nat :=
  (c.tapes.length, c.pushdowns.length)

/-- Contents whose tapes and stacks carry the same marks. -/
structure Marked (c : Contents α) (marks : Marks α) : Prop where
  tapes : ∀ t ∈ c.tapes, t.marks = marks
  pushdowns : ∀ s ∈ c.pushdowns, s.marks = marks

@[simp]
theorem shape_popAll (c : Contents α) : c.popAll.shape = c.shape := by
  simp [shape, popAll]

theorem Marked.popAll {c : Contents α} {marks : Marks α} (h : c.Marked marks) :
    c.popAll.Marked marks where
  tapes := h.tapes
  pushdowns := by
    intro s hs
    obtain ⟨s', hs', rfl⟩ := List.mem_map.mp hs
    exact h.pushdowns s' hs'

theorem Marked.addTape {c : Contents α} {marks : Marks α} (h : c.Marked marks)
    (content : List α) :
    ({ c with tapes := c.tapes ++ [.ofList marks content] } : Contents α).Marked marks where
  tapes := by
    intro t ht
    rcases List.mem_append.mp ht with ht | ht
    · exact h.tapes t ht
    · rw [List.mem_singleton.mp ht, Tape.marks_ofList]
  pushdowns := h.pushdowns

theorem Marked.addStack {c : Contents α} {marks : Marks α} (h : c.Marked marks)
    (content : List α) :
    ({ c with pushdowns := c.pushdowns ++ [.ofList marks content] } : Contents α).Marked
      marks where
  tapes := h.tapes
  pushdowns := by
    intro s hs
    rcases List.mem_append.mp hs with hs | hs
    · exact h.pushdowns s hs
    · rw [List.mem_singleton.mp hs]
      rfl

variable [DecidableEq α]

@[simp]
theorem shape_apply (c : Contents α) (r : Rule σ α) : (c.apply r).shape = c.shape := by
  simp [shape, apply, writeEach, pushEach, moveEach]

theorem Marked.apply {c : Contents α} {marks : Marks α} (h : c.Marked marks) (r : Rule σ α) :
    (c.apply r).Marked marks where
  tapes :=
    forall_mem_updateEach
      (forall_mem_updateEach h.tapes fun t v _ ht => (t.marks_write v).trans ht)
      fun t d _ ht => (t.marks_move d).trans ht
  pushdowns := forall_mem_updateEach h.pushdowns fun s v _ hs => (s.marks_push v).trans hs

end Contents

/-- Whether a key fits depends on the shape only. -/
theorem Key.Fits.of_shape {key : Key σ α} {c c' : Contents α} (h : key.Fits c)
    (hshape : c'.shape = c.shape) : key.Fits c' := by
  obtain ⟨htapes, hpushdowns⟩ := Prod.mk.inj hshape
  exact ⟨h.read.trans htapes.symm, h.pop.trans hpushdowns.symm⟩

namespace Machine

/-- What is known of an initialized machine and its contents at initialization. -/
structure Shaped (m : Machine σ α) (c : Contents α) : Prop where
  shape : m.contents.shape = c.shape
  marked : c.Marked m.config.marks
  tapes : m.contents.tapes ≠ []
  actions : m.table.actions ≠ []
  fits : ∀ a ∈ m.table.actions, a.rule.key.Fits m.contents

/-- What is known of a machine that is still being built. -/
structure Untouched (m : Machine σ α) : Prop where
  state : m.state = m.config.initial
  stepCount : m.stepCount = 0
  fault : m.fault = none

/-- The invariant of machines. -/
structure WellFormed [DecidableEq σ] (m : Machine σ α) : Prop where
  marked : m.contents.Marked m.config.marks
  balanced : ∀ a ∈ m.table.actions, a.rule.Balanced
  untouched : m.isInitialized = false → m.Untouched
  shaped : ∀ c, m.stored = some c → m.Shaped c
  /-- A machine with a fault is not halted. -/
  faulted : m.fault ≠ none → m.isHalted = false

theorem stored_eq_none_iff {m : Machine σ α} : m.isInitialized = false ↔ m.stored = none := by
  cases h : m.stored <;> simp [isInitialized, h]

/-- The shape of the contents matters, not the contents. -/
theorem Shaped.of_shape {m : Machine σ α} {c : Contents α} (h : m.Shaped c) {m' : Machine σ α}
    (hconfig : m'.config = m.config) (htable : m'.table = m.table)
    (hshape : m'.contents.shape = m.contents.shape) : m'.Shaped c where
  shape := hshape.trans h.shape
  marked := by
    rw [hconfig]
    exact h.marked
  tapes := by
    have hlength : m'.contents.tapes.length = m.contents.tapes.length := congrArg Prod.fst hshape
    intro hnil
    rw [hnil] at hlength
    exact h.tapes (List.length_eq_zero_iff.mp hlength.symm)
  actions := by
    rw [htable]
    exact h.actions
  fits := by
    rw [htable]
    exact fun a ha => (h.fits a ha).of_shape hshape

variable [DecidableEq σ]

theorem wellFormed_new (config : Config σ α) : (new config).WellFormed where
  marked := ⟨by simp [new], by simp [new]⟩
  balanced := by simp [new, Table.empty]
  untouched _ := ⟨rfl, rfl, rfl⟩
  shaped := by simp [new]
  faulted h := absurd rfl h

/-- A machine while it is being built. -/
theorem WellFormed.of_building {m' : Machine σ α} (hm : m'.isInitialized = false)
    (hmarked : m'.contents.Marked m'.config.marks)
    (hbalanced : ∀ a ∈ m'.table.actions, a.rule.Balanced) (huntouched : m'.Untouched) :
    m'.WellFormed where
  marked := hmarked
  balanced := hbalanced
  untouched _ := huntouched
  shaped c hc := by
    rw [stored_eq_none_iff.mp hm] at hc
    cases hc
  faulted h := absurd huntouched.fault h

/-- A machine that goes on with contents of the same shape. -/
theorem WellFormed.of_cycle {m m' : Machine σ α} (h : m.WellFormed) (hlive : m.Live)
    (hconfig : m'.config = m.config) (htable : m'.table = m.table)
    (hstored : m'.stored = m.stored) (hshape : m'.contents.shape = m.contents.shape)
    (hmarked : m'.contents.Marked m.config.marks)
    (hfaulted : m'.fault ≠ none → m'.isHalted = false) : m'.WellFormed where
  marked := by
    rw [hconfig]
    exact hmarked
  balanced := by
    rw [htable]
    exact h.balanced
  untouched hbuilding := by
    have hinitialized := hlive.initialized
    rw [isInitialized, ← hstored, ← isInitialized, hbuilding] at hinitialized
    cases hinitialized
  shaped c hc := by
    rw [hstored] at hc
    exact (h.shaped c hc).of_shape hconfig htable hshape
  faulted := hfaulted

variable [DecidableEq α]

/-- A cycle with a rule that writes and moves once on each tape and pushes once on each stack. -/
structure AppliesExactly (m m' : Machine σ α) (r : Rule σ α) : Prop where
  shape : m'.contents.shape = m.contents.shape
  writes : r.write.length = m.contents.tapes.length
  moves : r.directions.length = m.contents.tapes.length
  pushes : r.push.length = m.contents.pushdowns.length
  /-- Each tape is written on and moved once, and its cell is found. -/
  tape : ∀ (i : Nat) (t : Tape α), m.contents.tapes[i]? = some t →
    ∃ v d t', r.write[i]? = some v ∧ r.directions[i]? = some d ∧
      m'.contents.tapes[i]? = some t' ∧ t' = (t.write v).move d ∧
        (t.strip.write? t.marks.noWrite v).map (·.move t.marks.blank d) = some t'.strip
  /-- Each stack is popped once and pushed on once. -/
  pushdown : ∀ (i : Nat) (s : Stack α), m.contents.pushdowns[i]? = some s →
    ∃ v, r.push[i]? = some v ∧ m'.contents.pushdowns[i]? = some (s.pop.2.push v)

/-! ## Every change keeps a machine well-formed -/

theorem WellFormed.apply {m : Machine σ α} (h : m.WellFormed) (hlive : m.Live)
    (a : Action σ α) : (m.apply a).WellFormed := by
  refine h.of_cycle hlive rfl rfl rfl ?_ (h.marked.popAll.apply a.rule) ?_
  · rw [Machine.apply, Contents.shape_apply, Contents.shape_popAll]
  · intro hfault
    exact absurd hlive.unfaulted hfault

section

variable [Quoted σ] [Quoted α]

omit [DecidableEq α] in
theorem WellFormed.fail {m : Machine σ α} (h : m.WellFormed) (hlive : m.Live) :
    m.fail.WellFormed := by
  refine h.of_cycle hlive rfl rfl rfl ?_ ?_ fun _ => hlive.unhalted
  · show m.spoiled.shape = m.contents.shape
    unfold spoiled
    split
    · exact Contents.shape_popAll m.contents
    · rfl
  · show m.spoiled.Marked m.config.marks
    unfold spoiled
    split
    · exact h.marked.popAll
    · exact h.marked

theorem WellFormed.change {m m' : Machine σ α} (h : m.WellFormed) (hchange : Change m m') :
    m'.WellFormed := by
  cases hchange with
  | tape content hbuilding =>
    obtain ⟨hstate, hcount, hfault⟩ := h.untouched hbuilding
    exact .of_building hbuilding (h.marked.addTape content) h.balanced ⟨hstate, hcount, hfault⟩
  | stack content hbuilding =>
    obtain ⟨hstate, hcount, hfault⟩ := h.untouched hbuilding
    exact .of_building hbuilding (h.marked.addStack content) h.balanced ⟨hstate, hcount, hfault⟩
  | action hbuilding hbalanced =>
    obtain ⟨hstate, hcount, hfault⟩ := h.untouched hbuilding
    refine .of_building hbuilding h.marked ?_ ⟨hstate, hcount, hfault⟩
    intro a ha
    rcases Table.mem_insert ha with hrule | ha
    · rw [hrule]
      exact hbalanced
    · exact h.balanced a ha
  | init hbuilding htapes hactions hfits =>
    -- the contents to go back to are those that the rules were checked against
    refine ⟨h.marked, h.balanced, ?_, ?_, ?_⟩
    · intro hbuilding'
      cases hbuilding'
    · rintro c ⟨⟩
      exact ⟨rfl, h.marked, htapes, hactions, hfits⟩
    · intro hfault
      exact absurd (h.untouched hbuilding).fault hfault
  | apply hlive ha => exact h.apply hlive _
  | fail hlive ha => exact h.fail hlive
  | @reset c hstored =>
    -- cycles have kept the shape, so the rules still fit what they were checked against
    have hshaped := h.shaped c hstored
    refine ⟨hshaped.marked, h.balanced, ?_, ?_, ?_⟩
    · intro _
      exact ⟨rfl, rfl, rfl⟩
    · intro c' hc'
      cases hstored.symm.trans hc'
      exact hshaped.of_shape rfl rfl hshaped.shape.symm
    · intro hfault
      exact absurd rfl hfault

theorem config_change {m m' : Machine σ α} (hchange : Change m m') : m'.config = m.config := by
  cases hchange <;> rfl

theorem config_after (m : Machine σ α) (ops : List (Operation σ α)) :
    (m.after ops).config = m.config :=
  after_induction ops (P := fun m' => m'.config = m.config)
    (fun _ _ h hchange => (config_change hchange).trans h) rfl

/-- Once initialized, a machine always has the same contents to go back to. -/
theorem stored_after {m : Machine σ α} (hi : m.isInitialized = true) (ops : List (Operation σ α)) :
    (m.after ops).stored = m.stored := by
  refine after_induction ops (P := fun m' => m'.stored = m.stored) ?_ rfl
  intro m₁ m₂ hstored hchange
  have hi₁ : m₁.isInitialized = true := by
    rw [isInitialized, hstored, ← isInitialized, hi]
  rcases hchange.cases_of_initialized hi₁ with ⟨a, -, -, rfl⟩ | ⟨-, -, rfl⟩ | ⟨c, -, rfl⟩
  · exact hstored
  · exact hstored
  · exact hstored

/-- Every history keeps a machine well-formed. -/
theorem WellFormed.after {m : Machine σ α} (h : m.WellFormed) (ops : List (Operation σ α)) :
    (m.after ops).WellFormed :=
  after_induction ops (fun _ _ => WellFormed.change) h

theorem WellFormed.stepped {m : Machine σ α} (h : m.WellFormed) (n : Nat) :
    (m.stepped n).WellFormed :=
  changes_induction (fun _ _ => WellFormed.change) h (changes_stepped m n)

end

/-! ## Cycles of a well-formed machine -/

/-- What a rule of the table does to the contents of a well-formed machine. -/
theorem WellFormed.appliesExactly {m : Machine σ α} (h : m.WellFormed)
    (hi : m.isInitialized = true) {a : Action σ α} (ha : a ∈ m.table.actions) :
    m.AppliesExactly (m.apply a) a.rule := by
  obtain ⟨c, hc⟩ := Option.isSome_iff_exists.mp hi
  -- initialization has checked the key, registration the rest against the key
  have hfits := (h.shaped c hc).fits a ha
  have hbalanced := h.balanced a ha
  have hwrites : a.rule.write.length = m.contents.tapes.length :=
    hbalanced.write.trans hfits.read
  have hmoves : a.rule.directions.length = m.contents.tapes.length :=
    hbalanced.directions.trans hfits.read
  have hpushes : a.rule.push.length = m.contents.pushdowns.length :=
    hbalanced.push.trans hfits.pop
  refine ⟨?_, hwrites, hmoves, hpushes, ?_, ?_⟩
  · rw [Machine.apply, Contents.shape_apply, Contents.shape_popAll]
  · intro i t ht
    have hlt : i < m.contents.tapes.length := (List.getElem?_eq_some_iff.mp ht).1
    have hv : a.rule.write[i]? = some a.rule.write[i] := List.getElem?_eq_getElem _
    have hd : a.rule.directions[i]? = some a.rule.directions[i] := List.getElem?_eq_getElem _
    refine ⟨a.rule.write[i], a.rule.directions[i], _, hv, hd, ?_, rfl, ?_⟩
    · exact getElem?_updateEach Tape.move (getElem?_updateEach Tape.write ht hv) hd
    · rw [Tape.write?_strip, Option.map_some, ← Tape.move_strip, Tape.marks_write]
  · intro i s hs
    have hlt : i < m.contents.pushdowns.length := (List.getElem?_eq_some_iff.mp hs).1
    have hv : a.rule.push[i]? = some a.rule.push[i] := List.getElem?_eq_getElem _
    refine ⟨a.rule.push[i], hv, ?_⟩
    have hpopped : m.contents.popAll.pushdowns[i]? = some s.rest := by
      show (m.contents.pushdowns.map Stack.rest)[i]? = _
      rw [List.getElem?_map, hs, Option.map_some]
    exact getElem?_updateEach Stack.push hpopped hv

variable [Quoted σ] [Quoted α]

/-- After every history, refused and failed calls included, a machine is well-formed and has its
configuration, every head is on a cell, and a cycle that finds an action treats every tape and every
stack exactly once. -/
theorem wellFormed_after_new (config : Config σ α) (ops : List (Operation σ α)) :
    let m := (new config).after ops
    m.config = config ∧ m.WellFormed ∧
      (∀ t ∈ m.contents.tapes,
        0 < t.cells.length ∧ t.head < t.cells.length ∧ t.strip.read? = some t.current) ∧
      ∀ a, m.Live → m.table.lookup m.key = some a → m.AppliesExactly m.step.1 a.rule := by
  intro m
  have hm : m.WellFormed := (wellFormed_new config).after ops
  refine ⟨config_after _ ops, hm, ?_, ?_⟩
  · intro t _
    have hhead : t.head < t.cells.length := by
      rw [Tape.length_cells]
      exact t.head_lt_length
    exact ⟨Nat.zero_lt_of_lt hhead, hhead, t.read?_strip⟩
  · intro a hlive ha
    rw [step_of_lookup_some hlive ha]
    exact hm.appliesExactly hlive.initialized (Table.mem_of_lookup ha)

end Machine

end TapeMachine
