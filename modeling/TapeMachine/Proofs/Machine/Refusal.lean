import TapeMachine.Proofs.Machine.Registration
import TapeMachine.Proofs.Machine.Transcript
import TapeMachine.Proofs.Machine.WellFormed
import TapeMachine.Proofs.Table.Entries

/-!
# Refused calls

A call that is refused while a machine is being built leaves it as it is (`perform_fst_of_error`): none of
the building calls has changed anything by the time of its last check (`eq_of_addAction_eq_error` and the
like). So the history of a machine up to its initialization is the history of the calls that were heeded
(`Machine.heeded`): without the others it has the same answers and comes to the same machine, which holds
just what the heeded calls have added (`Machine.Built`). Whether initialization succeeds can be told from them
(`Operation.Complete`), and also whether it can still be made to succeed (`Operation.Completable`).
-/

namespace TapeMachine

variable {σ α : Type}

namespace Operation

/-- The calls that build a machine. -/
def Builds : Operation σ α → Prop
  | .addTape _ | .addStack _ | .addAction _ | .init => True
  | _ => False

/-- The content of the tape that a call adds. -/
def tape? : Operation σ α → Option (List α)
  | .addTape content => some content
  | _ => none

/-- The content of the stack that a call adds. -/
def stack? : Operation σ α → Option (List α)
  | .addStack content => some content
  | _ => none

/-- The rule that a call adds. -/
def rule? : Operation σ α → Option (Rule σ α)
  | .addAction rule => some rule
  | _ => none

/-- Calls that add all that initialization asks for: a tape, an action, and for each action as many tapes and
stacks as it reads and pops. -/
structure Complete (calls : List (Operation σ α)) : Prop where
  building : .init ∉ calls
  tapes : calls.filterMap tape? ≠ []
  rules : calls.filterMap rule? ≠ []
  fits : ∀ r ∈ calls.filterMap rule?,
    r.key.read.length = (calls.filterMap tape?).length ∧
      r.key.pop.length = (calls.filterMap stack?).length

/-- Calls that others can complete: all actions are for the same numbers of tapes and stacks, and there
are no more of these yet. -/
structure Completable (calls : List (Operation σ α)) : Prop where
  building : .init ∉ calls
  shape : ∃ tapes pushdowns, 0 < tapes ∧ (calls.filterMap tape?).length ≤ tapes ∧
    (calls.filterMap stack?).length ≤ pushdowns ∧
      ∀ r ∈ calls.filterMap rule?, r.key.read.length = tapes ∧ r.key.pop.length = pushdowns

/-- Calls are completable if more calls make them complete. -/
theorem Complete.completable {calls more : List (Operation σ α)} (h : Complete (calls ++ more)) :
    Completable calls := by
  obtain ⟨hbuilding, htapes, -, hfits⟩ := h
  simp only [List.filterMap_append] at htapes hfits
  refine ⟨fun hinit => hbuilding (List.mem_append_left _ hinit), _, _,
    List.length_pos_iff.mpr htapes, ?_, ?_, fun r hr => hfits r (List.mem_append_left _ hr)⟩
  · rw [List.length_append]
    exact Nat.le_add_right _ _
  · rw [List.length_append]
    exact Nat.le_add_right _ _

/-- The calls that are heeded by every machine that is being built, and leave it so. -/
def Adds : Operation σ α → Prop
  | .addTape _ | .addStack _ => True
  | .addAction rule => rule.Balanced
  | _ => False

/-! ## Completing calls -/

/-- Calls that add some empty tapes, some empty stacks and a rule. -/
def additions (tapes pushdowns : Nat) (rule : Rule σ α) : List (Operation σ α) :=
  List.replicate tapes (.addTape []) ++
    (List.replicate pushdowns (.addStack []) ++ [.addAction rule])

section

variable (tapes pushdowns : Nat) (rule : Rule σ α)

theorem mem_additions {op : Operation σ α} (h : op ∈ additions tapes pushdowns rule) :
    op = .addTape [] ∨ op = .addStack [] ∨ op = .addAction rule := by
  rcases List.mem_append.mp h with h | h
  · exact .inl (List.eq_of_mem_replicate h)
  · rcases List.mem_append.mp h with h | h
    · exact .inr (.inl (List.eq_of_mem_replicate h))
    · exact .inr (.inr (List.mem_singleton.mp h))

theorem filterMap_tape?_additions :
    (additions tapes pushdowns rule).filterMap tape? = List.replicate tapes [] := by
  simp [additions, List.filterMap_replicate, tape?]

theorem filterMap_stack?_additions :
    (additions tapes pushdowns rule).filterMap stack? = List.replicate pushdowns [] := by
  simp [additions, List.filterMap_replicate, stack?]

theorem filterMap_rule?_additions :
    (additions tapes pushdowns rule).filterMap rule? = [rule] := by
  simp [additions, List.filterMap_replicate, rule?]

end

/-- Completable calls are completed by empty tapes, empty stacks and an action. -/
theorem Completable.exists_complete {calls : List (Operation σ α)} (h : Completable calls)
    (state : σ) (symbol : α) : ∃ more, (∀ op ∈ more, op.Adds) ∧ Complete (calls ++ more) := by
  obtain ⟨hbuilding, tapes, pushdowns, hpos, htapes, hpushdowns, hfits⟩ := h
  let symbols := List.replicate tapes symbol
  let tops := List.replicate pushdowns symbol
  let rule : Rule σ α :=
    ⟨⟨state, symbols, tops⟩, symbols, tops, List.replicate tapes .stay, state⟩
  have hbalanced : rule.Balanced := by
    constructor <;> simp [rule, symbols, tops]
  let missingTapes := tapes - (calls.filterMap tape?).length
  let missingPushdowns := pushdowns - (calls.filterMap stack?).length
  let more := additions missingTapes missingPushdowns rule
  have hallTapes : ((calls ++ more).filterMap tape?).length = tapes := by
    rw [List.filterMap_append, filterMap_tape?_additions, List.length_append,
      List.length_replicate]
    omega
  have hallPushdowns : ((calls ++ more).filterMap stack?).length = pushdowns := by
    rw [List.filterMap_append, filterMap_stack?_additions, List.length_append,
      List.length_replicate]
    omega
  refine ⟨more, ?_, ?_, List.ne_nil_of_length_pos (hallTapes ▸ hpos), ?_, ?_⟩
  · intro op hop
    rcases mem_additions _ _ _ hop with rfl | rfl | rfl
    · trivial
    · trivial
    · exact hbalanced
  · intro hinit
    rcases List.mem_append.mp hinit with hinit | hinit
    · exact hbuilding hinit
    · rcases mem_additions _ _ _ hinit with h | h | h <;> cases h
  · rw [List.filterMap_append, filterMap_rule?_additions]
    exact List.append_ne_nil_of_right_ne_nil _ (List.cons_ne_nil _ _)
  · rw [hallTapes, hallPushdowns, List.filterMap_append, filterMap_rule?_additions]
    intro r hr
    rcases List.mem_append.mp hr with hr | hr
    · exact hfits r hr
    · rw [List.mem_singleton.mp hr]
      exact ⟨List.length_replicate, List.length_replicate⟩

end Operation

namespace Machine

section

variable {β : Type} {call : Machine σ α × Except Fault β} {answer : β → Answer}

/-- What has been answered to a call shows whether it was refused -/
theorem eq_error_of_map {f : Fault} (h : call.2.map answer = .error f) :
    call = (call.1, .error f) := by
  obtain ⟨m', result⟩ := call
  cases result with
  | ok b => cases h
  | error f' =>
    cases h
    rfl

/-- or not. -/
theorem exists_eq_ok_of_map {a : Answer} (h : call.2.map answer = .ok a) :
    ∃ b, call = (call.1, .ok b) := by
  obtain ⟨m', result⟩ := call
  cases result with
  | ok b => exact ⟨b, rfl⟩
  | error f => cases h

end

variable [DecidableEq σ] [DecidableEq α] [Quoted σ] [Quoted α]

/-- A call, unless it is refused. -/
def heeded? (m : Machine σ α) (op : Operation σ α) : Option (Operation σ α) :=
  if (m.perform op).2.isOk then some op else none

/-- The calls of a history that are not refused. -/
def heeded (m : Machine σ α) : List (Operation σ α) → List (Operation σ α)
  | [] => []
  | op :: ops => (m.heeded? op).toList ++ (m.perform op).1.heeded ops

/-- A history in which all calls that follow a successful initialization are for building. -/
def Prepares (m : Machine σ α) : List (Operation σ α) → Prop
  | [] => True
  | op :: ops => (op.Builds ∨ m.isInitialized = false) ∧ (m.perform op).1.Prepares ops

variable {m : Machine σ α} {op : Operation σ α} {ops : List (Operation σ α)}

/-! ## Calls before the initialization -/

theorem stepped_of_not_initialized (h : m.isInitialized = false) (n : Nat) : m.stepped n = m := by
  induction n with
  | zero => rfl
  | succ n ih => rw [stepped_succ, ih, step_of_not_initialized h]

/-- Cycles and resets do nothing to a machine that is being built. -/
theorem perform_fst_of_not_initialized (h : m.isInitialized = false) (hop : ¬op.Builds) :
    (m.perform op).1 = m := by
  cases op with
  | addTape content => exact absurd trivial hop
  | addStack content => exact absurd trivial hop
  | addAction rule => exact absurd trivial hop
  | init => exact absurd trivial hop
  | step => rw [perform, step_of_not_initialized h]
  | runFor limit =>
    obtain ⟨n, hn⟩ := m.runFrom_eq_stepped 0 limit
    rw [perform, runFor, hn, stepped_of_not_initialized h]
  | run fuel =>
    rw [perform]
    split
    · rename_i m' result hrun
      obtain ⟨n, rfl⟩ := run_eq_stepped hrun
      exact stepped_of_not_initialized h n
    · rfl
  | reset => rw [perform, reset, stored_eq_none_iff.mp h]

/-- A call that is refused changes nothing, unless it asks for a cycle of an initialized machine. -/
theorem perform_fst_of_error (hop : op.Builds ∨ m.isInitialized = false) {f : Fault}
    (hf : (m.perform op).2 = .error f) : (m.perform op).1 = m := by
  by_cases hbuilds : op.Builds
  · cases op with
    | addTape content => exact eq_of_addTape_eq_error (eq_error_of_map hf)
    | addStack content => exact eq_of_addStack_eq_error (eq_error_of_map hf)
    | addAction rule => exact eq_of_addAction_eq_error (eq_error_of_map hf)
    | init => exact eq_of_initThrough_eq_error (eq_error_of_map hf)
    | step => exact hbuilds.elim
    | runFor limit => exact hbuilds.elim
    | run fuel => exact hbuilds.elim
    | reset => exact hbuilds.elim
  · exact perform_fst_of_not_initialized (hop.resolve_left hbuilds) hbuilds

/-- After the initialization all calls for building are refused. -/
theorem perform_of_initialized (hi : m.isInitialized = true) (hop : op.Builds) :
    m.perform op = (m, .error .alreadyInitialized) := by
  cases op with
  | addTape content =>
    rw [perform, addTape_of_initialized hi]
    rfl
  | addStack content =>
    rw [perform, addStack_of_initialized hi]
    rfl
  | addAction rule =>
    rw [perform, addAction_of_initialized hi]
    rfl
  | init =>
    rw [perform, init_of_initialized hi]
    rfl
  | step => exact hop.elim
  | runFor limit => exact hop.elim
  | run fuel => exact hop.elim
  | reset => exact hop.elim

/-! ## Histories without the refused calls -/

theorem heeded?_of_ok {a : Answer} (ha : (m.perform op).2 = .ok a) : m.heeded? op = some op := by
  rw [heeded?, ha]
  rfl

theorem heeded?_of_error {f : Fault} (hf : (m.perform op).2 = .error f) : m.heeded? op = none := by
  rw [heeded?, hf]
  rfl

theorem heeded_append (m : Machine σ α) (ops more : List (Operation σ α)) :
    m.heeded (ops ++ more) = m.heeded ops ++ (m.after ops).heeded more := by
  induction ops generalizing m with
  | nil => rfl
  | cons op ops ih => simp only [List.cons_append, heeded, ih, after, List.append_assoc]

/-- A history goes on after its first call as it does without it if that is refused. -/
theorem heeded_cons_cases (hop : op.Builds ∨ m.isInitialized = false) (ops : List (Operation σ α)) :
    (∃ a, (m.perform op).2 = .ok a ∧ m.heeded (op :: ops) = op :: (m.perform op).1.heeded ops) ∨
      ∃ f, m.perform op = (m, .error f) ∧ m.heeded (op :: ops) = m.heeded ops := by
  cases hanswer : (m.perform op).2 with
  | ok a =>
    refine .inl ⟨a, rfl, ?_⟩
    rw [heeded, heeded?_of_ok hanswer]
    rfl
  | error f =>
    have hsame := perform_fst_of_error hop hanswer
    refine .inr ⟨f, Prod.ext hsame hanswer, ?_⟩
    rw [heeded, heeded?_of_error hanswer, hsame]
    rfl

/-- The heeded calls come to the same machine, -/
theorem Prepares.after_heeded (h : m.Prepares ops) : m.after (m.heeded ops) = m.after ops := by
  induction ops generalizing m with
  | nil => rfl
  | cons op ops ih =>
    obtain ⟨hop, hrest⟩ := h
    rcases heeded_cons_cases hop ops with ⟨a, -, hheeded⟩ | ⟨f, hperform, hheeded⟩
    · rw [hheeded]
      exact ih hrest
    · rw [hperform] at hrest
      rw [hheeded, after, hperform]
      exact ih hrest

/-- with the same answers and over the same machines. -/
theorem Prepares.transcript_heeded (h : m.Prepares ops) :
    m.transcript (m.heeded ops) = (m.transcript ops).filter fun r => r.2.isOk := by
  induction ops generalizing m with
  | nil => rfl
  | cons op ops ih =>
    obtain ⟨hop, hrest⟩ := h
    rcases heeded_cons_cases hop ops with ⟨a, hanswer, hheeded⟩ | ⟨f, hperform, hheeded⟩
    · have hok : (m.perform op).2.isOk = true := by
        rw [hanswer]
        rfl
      rw [hheeded, transcript, ih hrest]
      simp only [transcript, List.filter_cons, hok, if_true]
    · rw [hperform] at hrest
      rw [hheeded, transcript, hperform, ih hrest]
      rfl

theorem accepted?_eq (m : Machine σ α) (op : Operation σ α) :
    m.accepted? op = (m.heeded? op).bind Operation.rule? := by
  have hother (hrule : op.rule? = none) : (m.heeded? op).bind Operation.rule? = none := by
    rw [heeded?]
    split
    · exact hrule
    · rfl
  cases op with
  | addAction rule =>
    cases hadd : (m.addAction rule).2 with
    | ok id =>
      have hanswer : (m.perform (.addAction rule)).2 = .ok (.registered id) := by
        rw [perform, hadd]
        rfl
      rw [accepted?, hadd, heeded?_of_ok hanswer]
      rfl
    | error f =>
      have hanswer : (m.perform (.addAction rule)).2 = .error f := by
        rw [perform, hadd]
        rfl
      rw [accepted?, hadd, heeded?_of_error hanswer]
      rfl
  | addTape content => exact (hother rfl).symm
  | addStack content => exact (hother rfl).symm
  | init => exact (hother rfl).symm
  | step => exact (hother rfl).symm
  | runFor limit => exact (hother rfl).symm
  | run fuel => exact (hother rfl).symm
  | reset => exact (hother rfl).symm

/-- The rules that a history registers are those of its heeded calls. -/
theorem accepted_eq_filterMap_heeded (m : Machine σ α) (ops : List (Operation σ α)) :
    m.accepted ops = (m.heeded ops).filterMap Operation.rule? := by
  induction ops generalizing m with
  | nil => rfl
  | cons op ops ih =>
    rw [accepted, heeded, List.filterMap_append, ih, accepted?_eq]
    cases m.heeded? op with
    | none => rfl
    | some op =>
      show (op.rule?).toList ++ _ = List.filterMap Operation.rule? [op] ++ _
      cases h : op.rule? <;> simp [h]

/-! ## What the heeded calls have added -/

/-- What some calls have made of a machine. -/
structure Built (m m' : Machine σ α) (calls : List (Operation σ α)) : Prop where
  config : m'.config = m.config
  tapes : m'.contents.tapes =
    m.contents.tapes ++ (calls.filterMap Operation.tape?).map (.ofList m.config.marks)
  pushdowns : m'.contents.pushdowns =
    m.contents.pushdowns ++ (calls.filterMap Operation.stack?).map (.ofList m.config.marks)
  initialized : m'.isInitialized = true ↔ m.isInitialized = true ∨ .init ∈ calls

omit [DecidableEq σ] [DecidableEq α] [Quoted σ] [Quoted α] in
theorem Built.refl (m : Machine σ α) : m.Built m [] := by
  constructor <;> simp

omit [DecidableEq σ] [DecidableEq α] [Quoted σ] [Quoted α] in
theorem Built.trans {m' m'' : Machine σ α} {calls more : List (Operation σ α)}
    (h : m.Built m' calls) (h' : m'.Built m'' more) : m.Built m'' (calls ++ more) where
  config := h'.config.trans h.config
  tapes := by
    rw [h'.tapes, h.tapes, h.config, List.filterMap_append, List.map_append, List.append_assoc]
  pushdowns := by
    rw [h'.pushdowns, h.pushdowns, h.config, List.filterMap_append, List.map_append,
      List.append_assoc]
  initialized := by
    rw [h'.initialized, h.initialized, List.mem_append, or_assoc]

/-- A call that is heeded adds what it says, and nothing else. -/
theorem built_perform (hop : op.Builds ∨ m.isInitialized = false) {a : Answer}
    (ha : (m.perform op).2 = .ok a) : m.Built (m.perform op).1 [op] := by
  have hbuilding : m.isInitialized = false := by
    refine hop.elim (fun hbuilds => ?_) id
    cases hi : m.isInitialized with
    | false => rfl
    | true =>
      rw [perform_of_initialized hi hbuilds] at ha
      cases ha
  have hidle (hbuilds : ¬op.Builds) (htape : op.tape? = none) (hstack : op.stack? = none)
      (hinit : op ≠ .init) : m.Built (m.perform op).1 [op] := by
    rw [perform_fst_of_not_initialized hbuilding hbuilds]
    constructor <;> simp [htape, hstack, Ne.symm hinit]
  cases op with
  | addTape content =>
    obtain ⟨_, hadd⟩ := exists_eq_ok_of_map ha
    obtain ⟨-, hm'⟩ := addTape_eq_ok_iff.mp hadd
    rw [perform, hm']
    constructor <;> simp [Operation.tape?, Operation.stack?, isInitialized]
  | addStack content =>
    obtain ⟨_, hadd⟩ := exists_eq_ok_of_map ha
    obtain ⟨-, hm'⟩ := addStack_eq_ok_iff.mp hadd
    rw [perform, hm']
    constructor <;> simp [Operation.tape?, Operation.stack?, isInitialized]
  | addAction rule =>
    obtain ⟨id, hadd⟩ := exists_eq_ok_of_map ha
    obtain ⟨-, -, -, hm'⟩ := addAction_eq_ok_iff.mp hadd
    rw [perform, hm']
    constructor <;> simp [Operation.tape?, Operation.stack?, isInitialized]
  | init =>
    obtain ⟨_, hinit⟩ := exists_eq_ok_of_map ha
    obtain ⟨-, -, -, -, hm'⟩ := init_eq_ok_iff.mp hinit
    rw [perform, hm']
    constructor <;> simp [Operation.tape?, Operation.stack?, isInitialized]
  | step => exact hidle id rfl rfl (by simp)
  | runFor limit => exact hidle id rfl rfl (by simp)
  | run fuel => exact hidle id rfl rfl (by simp)
  | reset => exact hidle id rfl rfl (by simp)

theorem Prepares.built (h : m.Prepares ops) : m.Built (m.after ops) (m.heeded ops) := by
  induction ops generalizing m with
  | nil => exact .refl m
  | cons op ops ih =>
    obtain ⟨hop, hrest⟩ := h
    rcases heeded_cons_cases hop ops with ⟨a, hanswer, hheeded⟩ | ⟨f, hperform, hheeded⟩
    · rw [hheeded]
      exact (built_perform hop hanswer).trans (ih hrest)
    · rw [hperform] at hrest
      rw [hheeded, after, hperform]
      exact ih hrest

/-- A history that has not come to an initialization yet prepares one. -/
theorem prepares_of_building (h : (m.after ops).isInitialized = false) : m.Prepares ops := by
  induction ops generalizing m with
  | nil => trivial
  | cons op ops ih =>
    refine ⟨.inr ?_, ih h⟩
    cases hi : m.isInitialized with
    | false => rfl
    | true =>
      have hafter := stored_after hi (op :: ops)
      rw [isInitialized, hafter, ← isInitialized, hi] at h
      cases h

/-! ## Initialization by the heeded calls -/

section

variable {config : Config σ α}

theorem built_of_new (h : (new config).Prepares ops) :
    let calls := (new config).heeded ops
    ((new config).after ops).contents.tapes =
        (calls.filterMap Operation.tape?).map (.ofList config.marks) ∧
      ((new config).after ops).contents.pushdowns =
        (calls.filterMap Operation.stack?).map (.ofList config.marks) ∧
      ((new config).after ops).table.Records (calls.filterMap Operation.rule?) ∧
      (((new config).after ops).isInitialized = true ↔ .init ∈ calls) := by
  intro calls
  have hbuilt := h.built
  have hrecords := records_after_new config ops
  rw [accepted_eq_filterMap_heeded] at hrecords
  refine ⟨hbuilt.tapes, hbuilt.pushdowns, hrecords, ?_⟩
  rw [hbuilt.initialized]
  simp [new, isInitialized, calls]

/-- Initialization succeeds exactly if the heeded calls are complete. -/
theorem snd_init_eq_ok_iff (h : (new config).Prepares ops) :
    ((new config).after ops).init.2 = .ok () ↔ Operation.Complete ((new config).heeded ops) := by
  obtain ⟨htapes, hpushdowns, hrecords, hinitialized⟩ := built_of_new h
  -- the actions of the table have the keys of the rules that were registered
  have hfits : (∀ a ∈ ((new config).after ops).table.actions,
        a.rule.key.Fits ((new config).after ops).contents) ↔
      ∀ r ∈ ((new config).heeded ops).filterMap Operation.rule?,
        r.key.Fits ((new config).after ops).contents :=
    hrecords.forall_key_iff (P := fun key => key.Fits ((new config).after ops).contents)
  have hempty : ((new config).after ops).table.actions = [] ↔
      ((new config).heeded ops).filterMap Operation.rule? = [] := by
    rw [← List.isEmpty_iff]
    exact hrecords.isEmpty_iff
  constructor
  · intro hinit
    obtain ⟨hbuilding, hsome, hactions, hall, -⟩ := init_eq_ok_iff.mp (Prod.ext rfl hinit)
    refine ⟨?_, ?_, fun hrules => hactions (hempty.mpr hrules), ?_⟩
    · rw [← hinitialized, hbuilding]
      exact Bool.false_ne_true
    · intro hnone
      rw [htapes, hnone] at hsome
      exact hsome rfl
    · intro r hr
      have hr := hfits.mp hall r hr
      refine ⟨?_, ?_⟩
      · rw [hr.read, htapes, List.length_map]
      · rw [hr.pop, hpushdowns, List.length_map]
  · rintro ⟨hbuilding, hsome, hrules, hall⟩
    refine congrArg Prod.snd
      (init_eq_ok_iff.mpr ⟨?_, ?_, fun hactions => hrules (hempty.mp hactions), ?_, rfl⟩)
    · rw [← hinitialized] at hbuilding
      exact Bool.eq_false_iff.mpr hbuilding
    · rw [htapes]
      intro hnil
      exact hsome (List.map_eq_nil_iff.mp hnil)
    · refine hfits.mpr fun r hr => ⟨?_, ?_⟩
      · rw [(hall r hr).1, htapes, List.length_map]
      · rw [(hall r hr).2, hpushdowns, List.length_map]

/-- Additions are heeded by a machine that is being built. -/
theorem heeded_of_adds {m : Machine σ α} (hm : m.isInitialized = false)
    {calls : List (Operation σ α)} (hcalls : ∀ op ∈ calls, op.Adds) :
    m.heeded calls = calls ∧ (m.after calls).isInitialized = false := by
  induction calls generalizing m with
  | nil => exact ⟨rfl, hm⟩
  | cons op calls ih =>
    obtain ⟨hop, hcalls⟩ := List.forall_mem_cons.mp hcalls
    have hheeds : (∃ a, (m.perform op).2 = .ok a) ∧ (m.perform op).1.isInitialized = false := by
      cases op with
      | addTape content =>
        rw [perform, addTape_eq_ok_iff.mpr ⟨hm, rfl⟩]
        exact ⟨⟨.done, rfl⟩, hm⟩
      | addStack content =>
        rw [perform, addStack_eq_ok_iff.mpr ⟨hm, rfl⟩]
        exact ⟨⟨.done, rfl⟩, hm⟩
      | addAction rule =>
        rw [perform, addAction_eq_ok_iff.mpr ⟨hm, hop, rfl, rfl⟩]
        exact ⟨⟨_, rfl⟩, hm⟩
      | init => exact hop.elim
      | step => exact hop.elim
      | runFor limit => exact hop.elim
      | run fuel => exact hop.elim
      | reset => exact hop.elim
    obtain ⟨⟨a, hanswer⟩, hbuilding⟩ := hheeds
    obtain ⟨hrest, hafter⟩ := ih hbuilding hcalls
    rw [heeded, heeded?_of_ok hanswer]
    exact ⟨congrArg (op :: ·) hrest, hafter⟩

/-- Initialization can be made to succeed exactly if the heeded calls are completable. -/
theorem exists_snd_init_eq_ok_iff (h : (new config).Prepares ops) :
    (∃ more, (((new config).after ops).after more).init.2 = .ok ()) ↔
      Operation.Completable ((new config).heeded ops) := by
  constructor
  · rintro ⟨more, hinit⟩
    rw [← after_append] at hinit
    obtain ⟨hbuilding, -⟩ := init_eq_ok_iff.mp (Prod.ext rfl hinit)
    have hcomplete := (snd_init_eq_ok_iff (prepares_of_building hbuilding)).mp hinit
    rw [heeded_append] at hcomplete
    exact hcomplete.completable
  · intro hcompletable
    obtain ⟨more, hadds, hcomplete⟩ := hcompletable.exists_complete config.initial config.marks.blank
    have hbuilding : ((new config).after ops).isInitialized = false := by
      rw [Bool.eq_false_iff, Ne, (built_of_new h).2.2.2]
      exact hcompletable.building
    obtain ⟨hheeded, hafter⟩ := heeded_of_adds hbuilding hadds
    rw [← after_append] at hafter
    rw [← hheeded, ← heeded_append] at hcomplete
    have hinit := (snd_init_eq_ok_iff (prepares_of_building hafter)).mpr hcomplete
    exact ⟨more, after_append (new config) ops more ▸ hinit⟩

end

/-- A history that builds a machine, with any calls before the initialization and only such for building after
it, has the same answers and leaves the same machines without the calls that are refused. Initialization
succeeds if it has not yet, there are a tape and an action and every action fits the numbers of tapes and
stacks, and what it refuses can be completed as long as the actions allow; afterwards every call for building
is refused. -/
theorem refusals_leave_no_trace (config : Config σ α) {ops : List (Operation σ α)}
    (h : (new config).Prepares ops) :
    let m := (new config).after ops
    let heeded := (new config).heeded ops
    (new config).after heeded = m ∧
      (new config).transcript heeded = ((new config).transcript ops).filter (fun r => r.2.isOk) ∧
      (m.init.2 = .ok () ↔ Operation.Complete heeded) ∧
      ((∃ more, (m.after more).init.2 = .ok ()) ↔ Operation.Completable heeded) ∧
      (.init ∈ heeded → ∀ (later : List (Operation σ α)) (op : Operation σ α), op.Builds →
        (m.after later).perform op = (m.after later, .error .alreadyInitialized)) := by
  intro m heeded
  refine ⟨h.after_heeded, h.transcript_heeded, snd_init_eq_ok_iff h,
    exists_snd_init_eq_ok_iff h, ?_⟩
  intro hinit later op hop
  have hi : m.isInitialized = true := (built_of_new h).2.2.2.mpr hinit
  have hlater : (m.after later).isInitialized = true := by
    rw [isInitialized, stored_after hi, ← isInitialized, hi]
  exact perform_of_initialized hlater hop

/-- A machine that is refused its initialization three times, for want of a tape, of an action and of a second
tape, and is completed. -/
theorem refusals_leave_no_trace_completed :
    let config : Config Int Int := ⟨0, 1, ⟨0, 9⟩, .consume⟩
    let rule : Rule Int Int := ⟨⟨0, [1, 2], []⟩, [5, 6], [], [.left, .stay], 1⟩
    let ops := [.step, .init, .addTape [1], .init, .addAction { rule with push := [7] },
      .addAction rule, .init, .addTape [2], .init, .addTape [3], .addAction rule]
    (new config).Prepares ops ∧
      (new config).after ((new config).heeded ops) = (new config).after ops ∧
      ((new config).transcript ((new config).heeded ops)).map Prod.snd =
        [.ok .done, .ok (.registered ⟨0⟩), .ok .done, .ok .done] ∧
      (((new config).after ops).after [.runFor 2]).perform (.addStack []) =
        (((new config).after ops).after [.runFor 2], .error .alreadyInitialized) := by
  intro config rule ops
  have hprepares : (new config).Prepares ops :=
    ⟨.inr rfl, .inl trivial, .inl trivial, .inl trivial, .inl trivial, .inl trivial, .inl trivial,
      .inl trivial, .inl trivial, .inl trivial, .inl trivial, trivial⟩
  have hanswers : ((new config).transcript ((new config).heeded ops)).map Prod.snd =
      [.ok .done, .ok (.registered ⟨0⟩), .ok .done, .ok .done] := by decide
  have hi : ((new config).after ops).isInitialized = true := by decide
  have hinit : .init ∈ (new config).heeded ops := (built_of_new hprepares).2.2.2.mp hi
  obtain ⟨hafter, -, -, -, hrefused⟩ := refusals_leave_no_trace config hprepares
  exact ⟨hprepares, hafter, hanswers, hrefused hinit [.runFor 2] (.addStack []) trivial⟩

end Machine

end TapeMachine
