import TapeMachine.Program.Build
import TapeMachine.Proofs.Program.Checked

/-!
# The machine of a program

What the machine of a program is does not depend on the checks (`Program.machine`), and the checks do not
depend on the machine: each step of the building finds certain faults, and has the value it should
have if it finds none. So the building as a whole is one check, whose faults are listed in
the order in which they would be found (`Program.buildThrough_eq`): those of the program as it is written
(`Program.violations`), and last those of the keys that do not fit the machine, in the order in which the
actions are gone through.
-/

namespace TapeMachine

/-- The characters of a direction text that are not separators. -/
def ActionText.tokens (a : ActionText) : List Char :=
  a.directions.toList.filter fun c => !Direction.isSeparator c

/-- The configuration that an action is for. -/
def ActionText.key (a : ActionText) : Key String Char :=
  ⟨a.state, a.read.toList, a.pop.toList⟩

namespace Program

/-! ## The machine -/

/-- The direction that a character spells for a program. -/
def ofToken? (p : Program) : Char → Option Direction :=
  match p.directionTokens with
  | some own => own.ofToken?
  | none => Direction.ofToken?

/-- The rule of an action, with the directions that can be read. -/
def ruleOf (p : Program) (a : ActionText) : Rule String Char where
  key := a.key
  write := a.write.toList
  push := a.push.toList
  directions := a.tokens.filterMap p.ofToken?
  next := a.next

/-- The rules of all actions, registered in their order. -/
def table (p : Program) : Table String Char :=
  p.actions.foldl (fun t a => t.insert (p.ruleOf a)) .empty

/-- The tapes and stacks in their order. -/
def contents (p : Program) : Contents Char where
  tapes := p.tapes.map fun text => .ofList p.config.marks text.toList
  pushdowns := p.pushdowns.map fun text => .ofList p.config.marks text.toList

/-- The initialized machine of a program. -/
def machine (p : Program) : Machine String Char where
  config := p.config
  table := p.table
  state := p.initial
  contents := p.contents
  stored := some p.contents
  stepCount := 0
  fault := none

/-! ## What is wrong with a program -/

end Program

/-- The separators among the tokens and then, if two tokens are the same, that they are. -/
def DirectionTokens.faults (t : DirectionTokens) : List Fault :=
  ((t.all.filter Direction.isSeparator).map fun c => .invalidProgram (.separatorToken c)) ++
    if t.all.Nodup then [] else [.invalidProgram (.sameTokens t.left t.right t.stay)]

namespace Program

/-- The characters that spell a direction. -/
def spellings (p : Program) : List Char :=
  match p.directionTokens with
  | some own => own.all
  | none => ['<', '>', '-', 'L', 'R', 'S', 'l', 'r', 's']

/-- The symbols of the tapes, of the stacks and of each action, in the order in which they are written. -/
def symbols (p : Program) : List Char :=
  (p.tapes ++ p.pushdowns ++ p.actions.flatMap fun a => [a.read, a.pop, a.write, a.push]).flatMap
    String.toList

/-- The two marks, if they are the same. -/
def markFaults (p : Program) : List Fault :=
  if p.blank = p.noWrite then [.invalidProgram (.sameMarks p.blank)] else []

/-- The faults of the program's own direction tokens. -/
def tokenFaults (p : Program) : List Fault :=
  match p.directionTokens with
  | some own => own.faults
  | none => []

/-- The symbols that are neither in the alphabet nor a mark. -/
def symbolFaults (p : Program) : List Fault :=
  match p.alphabet with
  | some alphabet =>
    (p.symbols.filter fun c => ¬(c ∈ alphabet.toList ∨ c = p.blank ∨ c = p.noWrite)).map
      fun c => .invalidProgram (.foreignSymbol c)
  | none => []

/-- The directions of an action that cannot be read, and then its parts with the wrong number of
values: those to be written, the directions, those to be pushed. -/
def actionFaults (p : Program) (a : ActionText) : List Fault :=
  ((a.tokens.filter fun c => c ∉ p.spellings).map .invalidDirection) ++
    ((arityFault? a.state .write a.read.length a.write.length).toList ++
      (arityFault? a.state .direction a.read.length a.tokens.length).toList ++
      (arityFault? a.state .push a.pop.length a.push.length).toList)

/-- All that is wrong with a program apart from the shape of its keys, in the order in which it is found. -/
def violations (p : Program) : List Fault :=
  p.markFaults ++ p.tokenFaults ++ p.symbolFaults ++ p.actions.flatMap p.actionFaults ++
    (if p.tapes = [] then [.noTapes] else []) ++ if p.actions = [] then [.noActions] else []

/-- The fault of an action that does not read one symbol per tape or does not pop one per stack. -/
def misfit? (p : Program) (a : ActionText) : Option Fault :=
  arityFault? a.state .read p.tapes.length a.read.length
    <|> arityFault? a.state .pop p.pushdowns.length a.pop.length

/-! ## The checks before the building -/

end Program

theorem DirectionTokens.validate_eq (t : DirectionTokens) : t.validate = checked t.faults () := by
  unfold validate faults
  rw [← List.head?_filter]
  cases t.all.filter Direction.isSeparator with
  | cons c cs => rfl
  | nil =>
    have hnodup : t.all.Nodup ↔ ¬(t.left = t.right ∨ t.left = t.stay ∨ t.right = t.stay) := by
      simp [all, and_assoc]
    by_cases hsame : t.left = t.right ∨ t.left = t.stay ∨ t.right = t.stay
    · simp [hnodup, hsame]
    · simp [hnodup, hsame]

theorem DirectionTokens.ofToken?_eq_none_iff {t : DirectionTokens} {c : Char} :
    t.ofToken? c = none ↔ c ∉ t.all := by
  simp only [ofToken?, all]
  by_cases hleft : c = t.left
  · simp [hleft]
  · rw [if_neg hleft]
    by_cases hright : c = t.right
    · simp [hright]
    · rw [if_neg hright]
      simp [hleft, hright]

/-- What is read of a direction text, and what is wrong with it, depends on its tokens only. -/
theorem Direction.parseWith_eq (ofToken? : Char → Option Direction) (text : List Char) :
    let tokens := text.filter fun c => !isSeparator c
    parseWith ofToken? text =
      checked ((tokens.filter fun c => (ofToken? c).isNone).map .invalidDirection)
        (tokens.filterMap ofToken?) := by
  intro tokens
  apply mapM_eq_checked
  · intro c d hc
    rw [readWith, hc]
  · intro c hc
    rw [readWith, hc]

namespace Program

theorem not_allows_eq (p : Program) (alphabet : String) (c : Char) :
    (!p.allows alphabet c) = decide (¬(c ∈ alphabet.toList ∨ c = p.blank ∨ c = p.noWrite)) := by
  simp [allows, Bool.and_assoc]

/-- The first of the symbols that are faults is the one that is looked for. -/
theorem head?_symbolFaults (p : Program) :
    p.symbolFaults.head? = p.foreignSymbol?.map fun c => .invalidProgram (.foreignSymbol c) := by
  unfold symbolFaults foreignSymbol?
  cases p.alphabet with
  | none => rfl
  | some alphabet =>
    simp only [not_allows_eq, List.head?_map, List.head?_filter]
    rfl

theorem validate_eq (p : Program) :
    p.validate = checked (p.markFaults ++ (p.tokenFaults ++ p.symbolFaults)) () := by
  have hsymbols : checked p.symbolFaults () =
      checked (p.foreignSymbol?.map fun c => Fault.invalidProgram (.foreignSymbol c)).toList () := by
    apply checked_congr
    rw [head?_symbolFaults, Option.head?_toList]
  unfold validate markFaults tokenFaults
  by_cases hmarks : p.blank = p.noWrite
  · simp only [if_pos hmarks]
    rfl
  · simp only [if_neg hmarks, List.nil_append]
    cases p.directionTokens with
    | none =>
      rw [List.nil_append, hsymbols]
      cases p.foreignSymbol? <;> rfl
    | some own =>
      simp only [own.validate_eq]
      apply checked_bind
      intro _
      rw [hsymbols]
      cases p.foreignSymbol? <;> rfl

/-! ## The rule of an action -/

theorem ofToken?_eq_none_iff {p : Program} {c : Char} :
    p.ofToken? c = none ↔ c ∉ p.spellings := by
  unfold ofToken? spellings
  cases p.directionTokens with
  | none =>
    simp only [Direction.ofToken?]
    split <;> simp_all
  | some own => exact DirectionTokens.ofToken?_eq_none_iff

theorem parseDirections_eq (p : Program) (a : ActionText) :
    p.parseDirections a.directions =
      checked ((a.tokens.filter fun c => c ∉ p.spellings).map .invalidDirection)
        (a.tokens.filterMap p.ofToken?) := by
  have hparse : p.parseDirections a.directions =
      Direction.parseWith p.ofToken? a.directions.toList := by
    unfold parseDirections ofToken?
    cases p.directionTokens <;> rfl
  have hfaults : (a.tokens.filter fun c => c ∉ p.spellings) =
      a.tokens.filter fun c => (p.ofToken? c).isNone := by
    congr 1
    funext c
    rw [Bool.eq_iff_iff, Option.isNone_iff_eq_none, ofToken?_eq_none_iff, decide_eq_true_eq]
  rw [hparse, hfaults]
  exact Direction.parseWith_eq p.ofToken? a.directions.toList

theorem rule_eq (p : Program) (a : ActionText) :
    p.rule a = checked ((a.tokens.filter fun c => c ∉ p.spellings).map .invalidDirection)
      (p.ruleOf a) := by
  unfold rule
  rw [parseDirections_eq]
  exact checked_bind_ok _

theorem length_directions_ruleOf {p : Program} {a : ActionText}
    (h : (a.tokens.filter fun c => c ∉ p.spellings).map Fault.invalidDirection = []) :
    (p.ruleOf a).directions.length = a.tokens.length := by
  rw [List.map_eq_nil_iff, List.filter_eq_nil_iff] at h
  show (a.tokens.filterMap p.ofToken?).length = a.tokens.length
  rw [List.length_filterMap_eq_countP, List.countP_eq_length]
  intro c hc
  have hspelled := h c hc
  rw [decide_eq_true_eq, ← ofToken?_eq_none_iff] at hspelled
  exact Option.isSome_iff_ne_none.mpr hspelled

/-! ## Adding the parts -/

end Program

namespace Machine

variable {σ α : Type} [Quoted σ]

theorem demand_addAction [DecidableEq σ] [DecidableEq α] {m : Machine σ α}
    (h : m.isInitialized = false) (rule : Rule σ α) :
    demand (m.addAction rule) =
      checked rule.arityFault?.toList { m with table := m.table.insert rule } := by
  rw [addAction, ensureBuilding_eq_ok_iff.mpr h, Table.register]
  cases rule.arityFault? <;> rfl

theorem demand_initThrough {m : Machine σ α} (h : m.isInitialized = false)
    (listing : Listing σ α) :
    demand (m.initThrough listing) =
      checked ((if m.contents.tapes = [] then [.noTapes] else []) ++
          ((if m.table.actions = [] then [.noActions] else []) ++
            ((listing.list m.table).findSome? m.shapeFault?).toList))
        { m with state := m.config.initial, stepCount := 0, stored := some m.contents } := by
  rw [initThrough, ensureBuilding_eq_ok_iff.mpr h]
  by_cases htapes : m.contents.tapes = []
  · simp [htapes]
  · by_cases hactions : m.table.actions = []
    · simp [htapes, hactions, Table.isEmpty]
    · cases (listing.list m.table).findSome? m.shapeFault? <;>
        simp [htapes, hactions, Table.isEmpty]

end Machine

namespace Program

theorem addAction_eq {p : Program} {m : Machine String Char} (h : m.isInitialized = false)
    (a : ActionText) :
    p.addAction m a = checked (p.actionFaults a) { m with table := m.table.insert (p.ruleOf a) } := by
  unfold addAction actionFaults
  rw [rule_eq]
  apply checked_bind
  intro hlegible
  have hdirections := length_directions_ruleOf hlegible
  rw [Machine.demand_addAction h]
  refine checked_congr ?_ _
  -- the first arity that is wrong counts
  simp only [Rule.arityFault?, hdirections, List.head?_append, Option.head?_toList]
  simp only [ruleOf, ActionText.key, String.length_toList, Option.or_assoc, Option.orElse_eq_orElse,
    Option.orElse_eq_or]

theorem foldlM_addTape {m : Machine String Char} (h : m.isInitialized = false)
    (texts : List String) :
    texts.foldlM (fun m text => demand (m.addTape text.toList)) m = pure { m with
      contents.tapes := m.contents.tapes ++
        texts.map fun text => .ofList m.config.marks text.toList } := by
  induction texts generalizing m with
  | nil => simp [pure, Except.pure]
  | cons text texts ih =>
    rw [List.foldlM_cons, Machine.addTape_eq_ok_iff.mpr ⟨h, rfl⟩]
    refine (ih ?_).trans ?_
    · exact h
    · simp

theorem foldlM_addStack {m : Machine String Char} (h : m.isInitialized = false)
    (texts : List String) :
    texts.foldlM (fun m text => demand (m.addStack text.toList)) m = pure { m with
      contents.pushdowns := m.contents.pushdowns ++
        texts.map fun text => .ofList m.config.marks text.toList } := by
  induction texts generalizing m with
  | nil => simp [pure, Except.pure]
  | cons text texts ih =>
    rw [List.foldlM_cons, Machine.addStack_eq_ok_iff.mpr ⟨h, rfl⟩]
    refine (ih ?_).trans ?_
    · exact h
    · simp

theorem foldlM_addAction {p : Program} {m : Machine String Char} (h : m.isInitialized = false)
    (actions : List ActionText) :
    actions.foldlM p.addAction m = checked (actions.flatMap p.actionFaults)
      { m with table := actions.foldl (fun t a => t.insert (p.ruleOf a)) m.table } := by
  have htable : actions.foldl (fun (m : Machine String Char) a =>
        { m with table := m.table.insert (p.ruleOf a) }) m =
      { m with table := actions.foldl (fun t a => t.insert (p.ruleOf a)) m.table } :=
    List.foldl_hom (fun t => { m with table := t }) fun _ _ => rfl
  rw [← htable]
  apply foldlM_eq_checked (P := fun m => m.isInitialized = false)
  · intro m a hm
    exact addAction_eq hm a
  · intro m a hm
    exact hm
  · exact h

/-- The keys of the table are those of the actions. -/
theorem exists_mem_table_iff {p : Program} {key : Key String Char} :
    (∃ a ∈ p.table.actions, a.rule.key = key) ↔ ∃ a ∈ p.actions, a.key = key := by
  have hfold : ∀ (actions : List ActionText) (t : Table String Char),
      (∃ a ∈ (actions.foldl (fun t a => t.insert (p.ruleOf a)) t).actions, a.rule.key = key) ↔
        (∃ a ∈ actions, a.key = key) ∨ ∃ a ∈ t.actions, a.rule.key = key := by
    intro actions
    induction actions with
    | nil => simp
    | cons a actions ih =>
      intro t
      have hkey : (p.ruleOf a).key = a.key := rfl
      rw [List.foldl_cons, ih, Table.exists_mem_insert_iff, hkey]
      simp only [List.mem_cons, exists_eq_or_imp]
      exact or_left_comm.trans or_assoc.symm
  refine (hfold p.actions .empty).trans ?_
  simp [Table.empty]

theorem actions_table_eq_nil_iff {p : Program} : p.table.actions = [] ↔ p.actions = [] := by
  constructor
  · intro htable
    rw [List.eq_nil_iff_forall_not_mem]
    intro a ha
    obtain ⟨b, hb, -⟩ := exists_mem_table_iff.mpr ⟨a, ha, rfl⟩
    rw [htable] at hb
    cases hb
  · intro hactions
    rw [table, hactions]
    rfl

theorem buildThrough_eq (listing : Listing String Char) (p : Program) :
    p.buildThrough listing =
      checked (p.violations ++
        ((listing.list p.table).findSome? p.machine.shapeFault?).toList) p.machine := by
  have hgroup : p.violations ++ ((listing.list p.table).findSome? p.machine.shapeFault?).toList =
      (p.markFaults ++ (p.tokenFaults ++ p.symbolFaults)) ++
        (p.actions.flatMap p.actionFaults ++
          ((if p.tapes = [] then [.noTapes] else []) ++
            ((if p.actions = [] then [.noActions] else []) ++
              ((listing.list p.table).findSome? p.machine.shapeFault?).toList))) := by
    simp only [violations, List.append_assoc]
  have htapes : p.contents.tapes = [] ↔ p.tapes = [] := List.map_eq_nil_iff
  rw [hgroup, buildThrough, validate_eq]
  apply checked_bind
  intro _
  rw [foldlM_addTape rfl, pure_bind, foldlM_addStack rfl, pure_bind, foldlM_addAction rfl]
  apply checked_bind
  intro _
  rw [Machine.demand_initThrough rfl]
  simp only [← htapes, ← actions_table_eq_nil_iff]
  rfl

end Program

end TapeMachine
