import TapeMachine.Proofs.Machine.Registration
import TapeMachine.Proofs.Machine.WellFormed
import TapeMachine.Proofs.Tape.Unbounded

/-!
# The textbook machine

The machine of the textbooks has tapes without ends and stacks without a bottom, and takes its
actions straight from the list of its rules, the last one for a configuration counting. A machine of this
library stands for a configuration of it (`Machine.unbounded`), and the two run in step:

* an applied rule is obeyed by the configuration (`unbounded_apply`);
* so is each cycle (`move?_unbounded`), and its answer is the textbook machine's (`answer_unbounded`);
* after any number of cycles the one is stuck exactly if the other has failed, and otherwise they
  still agree (`run_unbounded`).
-/

namespace TapeMachine

variable {σ α : Type}

/-- A machine of the textbooks. -/
structure Textbook (σ α : Type) where
  /-- The state in which it ends. -/
  halt : σ
  /-- Writing or pushing this symbol changes nothing. -/
  noWrite : α
  /-- The rules in the order of their registration. -/
  rules : List (Rule σ α)

/-- A configuration of a textbook machine. -/
structure Configuration (σ α : Type) where
  state : σ
  tapes : List (EndlessTape α)
  pushdowns : List (EndlessStack α)

namespace Configuration

/-- The state, the symbols under the heads and the symbols on top. -/
def key (c : Configuration σ α) : Key σ α :=
  ⟨c.state, c.tapes.map fun t => t 0, c.pushdowns.map fun s => s 0⟩

/-- What a rule makes of a configuration: every stack loses its top, every value is written or
pushed, every head moves. A tape or stack for which the rule has no value would be gone. -/
def obey [DecidableEq α] (c : Configuration σ α) (noWrite : α) (r : Rule σ α) :
    Configuration σ α where
  state := r.next
  tapes := List.zipWith (fun t vd => (t.write noWrite vd.1).move vd.2) c.tapes
    (r.write.zip r.directions)
  pushdowns := List.zipWith (fun s v => s.rest.push noWrite v) c.pushdowns r.push

end Configuration

/-- What a textbook machine does in a configuration. -/
inductive Course (σ α : Type) where
  /-- Nothing, in the halt state. -/
  | halted
  /-- It takes an action. -/
  | taken (id : ActionId) (next : Configuration σ α)
  /-- It has no action. -/
  | stuck

namespace Textbook

variable [DecidableEq σ] [DecidableEq α]

/-- What happens next. -/
def course (T : Textbook σ α) (c : Configuration σ α) : Course σ α :=
  if c.state = T.halt then .halted
  else
    match latest? T.rules c.key with
    | some a => .taken a.id (c.obey T.noWrite a.rule)
    | none => .stuck

/-- The configuration after one step, if there is one. -/
def move? (T : Textbook σ α) (c : Configuration σ α) : Option (Configuration σ α) :=
  match T.course c with
  | .halted => some c
  | .taken _ next => some next
  | .stuck => none

/-- The configuration after so many steps, if the machine gets that far. -/
def run (T : Textbook σ α) (c : Configuration σ α) : (steps : Nat) → Option (Configuration σ α)
  | 0 => some c
  | steps + 1 => (T.run c steps).bind T.move?

/-- What a cycle answers that goes as the textbook machine does. -/
def answer [Quoted σ] [Quoted α] (T : Textbook σ α) (c : Configuration σ α) :
    Except Fault Progress :=
  match T.course c with
  | .halted => .ok .halted
  | .taken id next => .ok (if next.state = T.halt then .halted else .running id)
  | .stuck => .error (Machine.undefinedTransition c.key)

end Textbook

namespace Machine

/-- The configuration that a machine stands for: its tapes and stacks go on with blanks. -/
def unbounded (m : Machine σ α) : Configuration σ α where
  state := m.state
  tapes := m.contents.tapes.map fun t => t.unbounded m.config.marks.blank
  pushdowns := m.contents.pushdowns.map fun s => s.unbounded m.config.marks.blank

theorem key_unbounded {m : Machine σ α} (h : m.contents.Marked m.config.marks) :
    m.unbounded.key = m.key := by
  have hread : m.unbounded.tapes.map (fun t => t 0) = m.symbols := by
    simp only [unbounded, symbols, List.map_map]
    exact List.map_congr_left fun t _ => t.unbounded_zero _
  have hpop : m.unbounded.pushdowns.map (fun s => s 0) = m.tops := by
    simp only [unbounded, tops, List.map_map]
    refine List.map_congr_left fun s hs => ?_
    show s.unbounded m.config.marks.blank 0 = s.top
    rw [← h.pushdowns s hs, s.unbounded_zero]
  rw [Configuration.key, hread, hpop]
  rfl

variable [DecidableEq σ] [DecidableEq α]

/-- A rule of the table is obeyed. -/
theorem unbounded_apply {m : Machine σ α} (h : m.WellFormed) (hi : m.isInitialized = true)
    {a : Action σ α} (ha : a ∈ m.table.actions) :
    (m.apply a).unbounded = m.unbounded.obey m.config.marks.noWrite a.rule := by
  have hexact := h.appliesExactly hi ha
  obtain ⟨hntapes, hnpushdowns⟩ := Prod.mk.inj hexact.shape
  have htapes : (m.apply a).unbounded.tapes =
      (m.unbounded.obey m.config.marks.noWrite a.rule).tapes := by
    refine List.ext_getElem? fun i => ?_
    simp only [unbounded, Configuration.obey, List.getElem?_map, List.getElem?_zipWith]
    cases ht : m.contents.tapes[i]? with
    | none =>
      -- neither side has a tape there
      have hend : (m.apply a).contents.tapes[i]? = none := by
        rw [List.getElem?_eq_none_iff, hntapes]
        exact List.getElem?_eq_none_iff.mp ht
      rw [hend]
      rfl
    | some t =>
      obtain ⟨v, d, t', hv, hd, ht', rfl, _⟩ := hexact.tape i t ht
      -- the tape grows by the blank of the configuration
      have hmarks : t.marks = m.config.marks := h.marked.tapes t (List.mem_of_getElem? ht)
      have hmove := (t.write v).unbounded_move d
      rw [Tape.marks_write, hmarks, Tape.unbounded_write, hmarks] at hmove
      have hvd : (a.rule.write.zip a.rule.directions)[i]? = some (v, d) :=
        List.getElem?_zip_eq_some.mpr ⟨hv, hd⟩
      rw [ht', hvd]
      exact congrArg some hmove
  have hpushdowns : (m.apply a).unbounded.pushdowns =
      (m.unbounded.obey m.config.marks.noWrite a.rule).pushdowns := by
    refine List.ext_getElem? fun i => ?_
    simp only [unbounded, Configuration.obey, List.getElem?_map, List.getElem?_zipWith]
    cases hs : m.contents.pushdowns[i]? with
    | none =>
      have hend : (m.apply a).contents.pushdowns[i]? = none := by
        rw [List.getElem?_eq_none_iff, hnpushdowns]
        exact List.getElem?_eq_none_iff.mp hs
      rw [hend]
      rfl
    | some s =>
      obtain ⟨v, hv, hs'⟩ := hexact.pushdown i s hs
      have hmarks : s.marks = m.config.marks := h.marked.pushdowns s (List.mem_of_getElem? hs)
      have hpush := Stack.unbounded_push s.rest m.config.marks.blank v
      rw [Stack.marks_rest, hmarks, Stack.unbounded_rest] at hpush
      rw [hs', hv]
      exact congrArg some hpush
  show Configuration.mk _ (m.apply a).unbounded.tapes (m.apply a).unbounded.pushdowns = _
  rw [htapes, hpushdowns]
  rfl

/-! ## Cycles and runs -/

/-- The textbook machine with the halt state and the no-write symbol of a machine. -/
def textbook (m : Machine σ α) (rules : List (Rule σ α)) : Textbook σ α :=
  ⟨m.config.halt, m.config.marks.noWrite, rules⟩

variable [Quoted σ] [Quoted α] {m : Machine σ α} {rules : List (Rule σ α)}

/-- A cycle takes the course of the textbook machine. -/
theorem course_unbounded (h : m.WellFormed) (hrules : m.table.Records rules)
    (hi : m.isInitialized = true) (hf : m.fault = none) :
    ((m.textbook rules).course m.unbounded = .halted ∧ m.step = (m, .ok .halted)) ∨
      (∃ a, (m.textbook rules).course m.unbounded = .taken a.id (m.apply a).unbounded ∧
        m.step = (m.apply a,
          .ok (if a.rule.next = m.config.halt then .halted else .running a.id))) ∨
      ((m.textbook rules).course m.unbounded = .stuck ∧
        m.step = (m.fail, .error (undefinedTransition m.unbounded.key))) := by
  by_cases hstate : m.state = m.config.halt
  · have hh : m.isHalted = true := by
      simp [isHalted, hi, hstate]
    exact .inl ⟨if_pos hstate, step_of_halted hf hh⟩
  · have hlive : m.Live := ⟨hi, hf, by simp [isHalted, hstate]⟩
    have hunhalted : ¬m.unbounded.state = (m.textbook rules).halt := hstate
    have hlatest : latest? (m.textbook rules).rules m.unbounded.key = m.table.lookup m.key := by
      rw [key_unbounded h.marked, hrules.lookup]
      rfl
    rw [Textbook.course, if_neg hunhalted, hlatest]
    cases ha : m.table.lookup m.key with
    | some a =>
      refine .inr (.inl ⟨a, ?_, step_of_lookup_some hlive ha⟩)
      rw [unbounded_apply h hi (Table.mem_of_lookup ha)]
      rfl
    | none =>
      refine .inr (.inr ⟨rfl, ?_⟩)
      rw [key_unbounded h.marked]
      exact step_of_lookup_none hlive ha

/-- A cycle fails exactly if the textbook machine is stuck, and else moves as it does. -/
theorem move?_unbounded (h : m.WellFormed) (hrules : m.table.Records rules)
    (hi : m.isInitialized = true) (hf : m.fault = none) :
    (m.textbook rules).move? m.unbounded =
      if m.step.1.fault = none then some m.step.1.unbounded else none := by
  rcases course_unbounded h hrules hi hf with ⟨hcourse, hstep⟩ | ⟨a, hcourse, hstep⟩ |
    ⟨hcourse, hstep⟩
  · rw [Textbook.move?, hcourse, hstep, if_pos hf]
  · have hunfaulted : (m.apply a).fault = none := hf
    rw [Textbook.move?, hcourse, hstep, if_pos hunfaulted]
  · have hfaulted : ¬m.fail.fault = none := Option.some_ne_none _
    rw [Textbook.move?, hcourse, hstep, if_neg hfaulted]

theorem answer_unbounded (h : m.WellFormed) (hrules : m.table.Records rules)
    (hi : m.isInitialized = true) (hf : m.fault = none) :
    m.step.2 = (m.textbook rules).answer m.unbounded := by
  rcases course_unbounded h hrules hi hf with ⟨hcourse, hstep⟩ | ⟨a, hcourse, hstep⟩ |
    ⟨hcourse, hstep⟩
  · rw [Textbook.answer, hcourse, hstep]
  · rw [Textbook.answer, hcourse, hstep]
    rfl
  · rw [Textbook.answer, hcourse, hstep]

/-- After any number of cycles a machine has failed exactly if the textbook machine has got stuck,
and else stands for the configuration that the textbook machine has reached. -/
theorem run_unbounded (h : m.WellFormed) (hrules : m.table.Records rules)
    (hi : m.isInitialized = true) (hf : m.fault = none) (n : Nat) :
    (m.textbook rules).run m.unbounded n =
      if (m.stepped n).fault = none then some (m.stepped n).unbounded else none := by
  induction n with
  | zero => exact (if_pos hf).symm
  | succ n ih =>
    have hi' : (m.stepped n).isInitialized = true := by
      rw [isInitialized_stepped, hi]
    rw [Textbook.run, ih, stepped_succ]
    by_cases hf' : (m.stepped n).fault = none
    · have htextbook : m.textbook rules = (m.stepped n).textbook rules := by
        rw [textbook, textbook, config_stepped]
      have hrules' : (m.stepped n).table.Records rules := by
        rw [table_stepped]
        exact hrules
      rw [if_pos hf', Option.bind_some, htextbook]
      exact move?_unbounded (h.stepped n) hrules' hi' hf'
    · -- a machine that has failed stays as it is
      obtain ⟨f, hfault⟩ := Option.ne_none_iff_exists'.mp hf'
      rw [if_neg hf', Option.bind_none, step_of_fault hi' hfault, if_neg hf']

/-- Runs of a machine, whatever has happened to it since it was new, are runs of the textbook machine
whose rules are those that were registered. -/
theorem stepped_after_new (config : Config σ α) (ops : List (Operation σ α))
    (hi : ((new config).after ops).isInitialized = true)
    (hf : ((new config).after ops).fault = none) (n : Nat) :
    let m := (new config).after ops
    let T : Textbook σ α := ⟨config.halt, config.marks.noWrite, (new config).accepted ops⟩
    T.run m.unbounded n =
        (if (m.stepped n).fault = none then some (m.stepped n).unbounded else none) ∧
      ((m.stepped n).fault = none →
        (m.stepped n).step.2 = T.answer (m.stepped n).unbounded ∧
          (T.course (m.stepped n).unbounded = .halted → m.stepped (n + 1) = m.stepped n)) := by
  intro m T
  have hconfig : m.config = config := config_after _ ops
  have hm : m.WellFormed := (wellFormed_new config).after ops
  have hrules : m.table.Records ((new config).accepted ops) := records_after_new config ops
  have hT : T = m.textbook ((new config).accepted ops) := by
    rw [textbook, hconfig]
  refine ⟨?_, fun hf' => ?_⟩
  · rw [hT]
    exact run_unbounded hm hrules hi hf n
  · have hT' : T = (m.stepped n).textbook ((new config).accepted ops) := by
      rw [textbook, config_stepped, hconfig]
    have hi' : (m.stepped n).isInitialized = true := by
      rw [isInitialized_stepped, hi]
    have hrules' : (m.stepped n).table.Records ((new config).accepted ops) := by
      rw [table_stepped]
      exact hrules
    rw [hT']
    refine ⟨answer_unbounded (hm.stepped n) hrules' hi' hf', fun hhalted => ?_⟩
    rcases course_unbounded (hm.stepped n) hrules' hi' hf' with ⟨_, hstep⟩ | ⟨a, hcourse, _⟩ |
      ⟨hcourse, _⟩
    · rw [stepped_succ, hstep]
    · rw [hcourse] at hhalted
      cases hhalted
    · rw [hcourse] at hhalted
      cases hhalted

/-- A machine that writes on an empty tape, moves past its front and pushes on an empty stack. -/
theorem stepped_after_new_past_front :
    let config : Config Int Int := ⟨0, 1, ⟨0, 9⟩, .consume⟩
    let rule : Rule Int Int := ⟨⟨0, [0], [0]⟩, [5], [7], [.left], 1⟩
    let ops := [.addTape [], .addStack [], .addAction rule, .init]
    let m := (new config).after ops
    m.isInitialized = true ∧ m.fault = none ∧
      (⟨1, 9, (new config).accepted ops⟩ : Textbook Int Int).run m.unbounded 2 =
        some (m.stepped 2).unbounded := by
  intro config rule ops m
  have hi : m.isInitialized = true := by decide
  have hf : m.fault = none := by decide
  have hunfaulted : (m.stepped 2).fault = none := by decide
  refine ⟨hi, hf, ?_⟩
  have hrun := (stepped_after_new config ops hi hf 2).1
  rw [if_pos hunfaulted] at hrun
  exact hrun

end Machine

end TapeMachine
