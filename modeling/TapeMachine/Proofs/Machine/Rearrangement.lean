import Mathlib.Data.List.OfFn
import Mathlib.Logic.Equiv.Defs
import TapeMachine.Proofs.Machine.Limits
import TapeMachine.Proofs.Machine.Refusal

/-!
# The order of tapes and stacks

Tapes, and stacks likewise, are told apart by their places only: the symbols of a key, the values of a rule and
the contents of a machine are matched place by place. So all of them can be put in another order together
(`permuted`, `Rule.rearranged`, `Contents.rearranged`):

* popping, writing, pushing and moving do the same in the other order (`Contents.apply_rearranged`);
* rearranged keys differ where the keys differ, so the last rule for a key stays the last
  (`latest?_rearranged`);
* hence a cycle leaves machines in two orders in the same two orders (`Mirrors.step`), and so does a run
  (`Mirrors.runFor`).

With what calls build (`built_of_gathers`) this makes the order of the tapes and of the stacks immaterial
(`order_immaterial`).
-/

namespace TapeMachine

open Equiv (Perm)

/-! ## Lists in another order -/

section

variable {n : Nat} (π : Perm (Fin n)) {β γ : Type}

/-- A list in another order: at each place is what the permutation of the places says. A list of another
length stays as it is. -/
def permuted (l : List β) : List β :=
  if h : l.length = n then List.ofFn fun i => l.get ((π i).cast h.symm) else l

theorem permuted_of_length_ne {l : List β} (h : l.length ≠ n) : permuted π l = l :=
  dif_neg h

@[simp]
theorem length_permuted (l : List β) : (permuted π l).length = l.length := by
  unfold permuted
  split
  · rename_i h
    rw [List.length_ofFn, h]
  · rfl

theorem getElem?_permuted {l : List β} (h : l.length = n) (i : Fin n) :
    (permuted π l)[i.val]? = l[(π i).val]? := by
  have hlt : (π i).val < l.length := by
    rw [h]
    exact (π i).isLt
  rw [permuted, dif_pos h, List.getElem?_ofFn, dif_pos i.isLt, List.getElem?_eq_getElem hlt]
  rfl

/-- Lists of one length are equal if they have the same at each place. -/
theorem eq_of_getElem?_fin {l l' : List β} (hl : l.length = n) (hl' : l'.length = n)
    (h : ∀ i : Fin n, l[i.val]? = l'[i.val]?) : l = l' := by
  apply List.ext_getElem?
  intro i
  by_cases hi : i < n
  · exact h ⟨i, hi⟩
  · rw [List.getElem?_eq_none (by omega), List.getElem?_eq_none (by omega)]

theorem map_permuted (f : β → γ) (l : List β) :
    (permuted π l).map f = permuted π (l.map f) := by
  by_cases h : l.length = n
  · have hmap : (l.map f).length = n := by
      rw [List.length_map, h]
    apply eq_of_getElem?_fin (by simpa using h) (by simpa using h)
    intro i
    rw [List.getElem?_map, getElem?_permuted π h, getElem?_permuted π hmap, List.getElem?_map]
  · rw [permuted_of_length_ne π h, permuted_of_length_ne π (by simpa using h)]

theorem permuted_eq_nil_iff {π : Perm (Fin n)} {l : List β} : permuted π l = [] ↔ l = [] := by
  rw [← List.length_eq_zero_iff, length_permuted, List.length_eq_zero_iff]

/-- Items and their values can be permuted together. -/
theorem updateEach_permuted (f : β → γ → β) {xs : List β} {vs : List γ}
    (hlength : vs.length = xs.length) :
    updateEach f (permuted π xs) (permuted π vs) = permuted π (updateEach f xs vs) := by
  by_cases h : xs.length = n
  · have hvs : vs.length = n := hlength.trans h
    have hupdated : (updateEach f xs vs).length = n := by
      rw [length_updateEach, h]
    apply eq_of_getElem?_fin (by simpa using h) (by simpa using h)
    intro i
    rw [getElem?_permuted π hupdated, updateEach_eq_zipWith f hlength.symm,
      updateEach_eq_zipWith f (by simpa using hlength.symm), List.getElem?_zipWith,
      List.getElem?_zipWith, getElem?_permuted π h, getElem?_permuted π hvs]
  · have hvs : vs.length ≠ n := hlength.trans_ne h
    rw [permuted_of_length_ne π h, permuted_of_length_ne π hvs,
      permuted_of_length_ne π (by simpa using h)]

theorem permuted_injective : Function.Injective (permuted π : List β → List β) := by
  intro l l' heq
  have hlength : l.length = l'.length := by
    simpa using congrArg List.length heq
  by_cases h : l.length = n
  · have h' : l'.length = n := hlength.symm.trans h
    apply eq_of_getElem?_fin h h'
    intro i
    obtain ⟨j, rfl⟩ := π.surjective i
    rw [← getElem?_permuted π h, ← getElem?_permuted π h', heq]
  · rw [permuted_of_length_ne π h, permuted_of_length_ne π (by omega)] at heq
    exact heq

end

variable {σ α : Type}

namespace Operation

/-- The calls that add something to a machine. -/
def IsAddition : Operation σ α → Prop
  | .addTape _ | .addStack _ | .addAction _ => True
  | _ => False

/-- Calls that add some tapes, some stacks and some rules, each in their order but in any order among each
other. -/
structure Gathers (calls : List (Operation σ α)) (tapes pushdowns : List (List α))
    (rules : List (Rule σ α)) : Prop where
  additions : ∀ op ∈ calls, op.IsAddition
  tapes : calls.filterMap tape? = tapes
  pushdowns : calls.filterMap stack? = pushdowns
  rules : calls.filterMap rule? = rules

instance (op : Operation σ α) : Decidable op.Adds :=
  match op with
  | .addTape _ => .isTrue trivial
  | .addStack _ => .isTrue trivial
  | .addAction rule => inferInstanceAs (Decidable rule.Balanced)
  | .init => .isFalse id
  | .step => .isFalse id
  | .runFor _ => .isFalse id
  | .run _ => .isFalse id
  | .reset => .isFalse id

/-- What is added by none of the other calls is added by these. -/
theorem filterMap_filter_adds {β : Type} {f : Operation σ α → Option β}
    (hf : ∀ op, ¬op.Adds → f op = none) (calls : List (Operation σ α)) :
    (calls.filter fun op => op.Adds).filterMap f = calls.filterMap f := by
  rw [List.filterMap_filter]
  congr 1
  funext op
  by_cases h : op.Adds
  · simp [h]
  · simp [h, hf op h]

theorem tape?_eq_none {op : Operation σ α} (h : ¬op.Adds) : op.tape? = none := by
  cases op with
  | addTape content => exact absurd trivial h
  | _ => rfl

theorem stack?_eq_none {op : Operation σ α} (h : ¬op.Adds) : op.stack? = none := by
  cases op with
  | addStack content => exact absurd trivial h
  | _ => rfl

theorem filterMap_rule?_filter (calls : List (Operation σ α)) :
    (calls.filter fun op => op.Adds).filterMap rule? =
      (calls.filterMap rule?).filter fun r => r.Balanced := by
  rw [List.filterMap_filter, List.filter_filterMap]
  congr 1
  funext op
  cases op with
  | addAction rule =>
    show (if decide rule.Balanced = true then some rule else none) = Option.filter _ (some rule)
    rw [Option.filter_some]
  | _ => rfl

end Operation

variable {k l : Nat} (π : Perm (Fin k)) (ρ : Perm (Fin l))

/-! ## Keys, rules and contents in another order -/

/-- A key for tapes and stacks in another order. -/
def Key.rearranged (key : Key σ α) : Key σ α :=
  ⟨key.state, permuted π key.read, permuted ρ key.pop⟩

/-- A rule for tapes and stacks in another order. -/
def Rule.rearranged (r : Rule σ α) : Rule σ α where
  key := r.key.rearranged π ρ
  write := permuted π r.write
  push := permuted ρ r.push
  directions := permuted π r.directions
  next := r.next

def Action.rearranged (a : Action σ α) : Action σ α :=
  ⟨a.id, a.rule.rearranged π ρ⟩

/-- The tapes and the stacks in another order. -/
def Contents.rearranged (c : Contents α) : Contents α :=
  ⟨permuted π c.tapes, permuted ρ c.pushdowns⟩

theorem Key.rearranged_injective :
    Function.Injective (Key.rearranged π ρ : Key σ α → Key σ α) := by
  rintro ⟨state, read, pop⟩ ⟨state', read', pop'⟩ heq
  simp only [rearranged, Key.mk.injEq] at heq
  obtain ⟨rfl, hread, hpop⟩ := heq
  rw [permuted_injective π hread, permuted_injective ρ hpop]

theorem Key.Fits.rearranged {key : Key σ α} {c : Contents α} (h : key.Fits c) :
    (key.rearranged π ρ).Fits (c.rearranged π ρ) where
  read := by
    rw [Key.rearranged, Contents.rearranged, length_permuted, length_permuted, h.read]
  pop := by
    rw [Key.rearranged, Contents.rearranged, length_permuted, length_permuted, h.pop]

theorem Rule.balanced_rearranged_iff {r : Rule σ α} :
    (r.rearranged π ρ).Balanced ↔ r.Balanced := by
  have hlengths : (r.rearranged π ρ).write.length = r.write.length ∧
      (r.rearranged π ρ).directions.length = r.directions.length ∧
      (r.rearranged π ρ).push.length = r.push.length ∧
      (r.rearranged π ρ).key.read.length = r.key.read.length ∧
      (r.rearranged π ρ).key.pop.length = r.key.pop.length := by
    simp [rearranged, Key.rearranged]
  obtain ⟨hwrite, hdirections, hpush, hread, hpop⟩ := hlengths
  constructor
  · intro h
    exact ⟨by rw [← hwrite, ← hread, h.write], by rw [← hdirections, ← hread, h.directions],
      by rw [← hpush, ← hpop, h.push]⟩
  · intro h
    exact ⟨by rw [hwrite, hread, h.write], by rw [hdirections, hread, h.directions],
      by rw [hpush, hpop, h.push]⟩

theorem Contents.popAll_rearranged (c : Contents α) :
    (c.rearranged π ρ).popAll = c.popAll.rearranged π ρ := by
  simp only [popAll, rearranged, map_permuted]

/-- A rule that has a value for each tape and each stack does the same in another order. -/
theorem Contents.apply_rearranged [DecidableEq α] {c : Contents α} {r : Rule σ α}
    (hwrite : r.write.length = c.tapes.length) (hdirections : r.directions.length = c.tapes.length)
    (hpush : r.push.length = c.pushdowns.length) :
    (c.rearranged π ρ).apply (r.rearranged π ρ) = (c.apply r).rearranged π ρ := by
  have hmoved : r.directions.length = (updateEach Tape.write c.tapes r.write).length := by
    rw [length_updateEach, hdirections]
  simp only [apply, writeEach, pushEach, moveEach, rearranged, Rule.rearranged,
    updateEach_permuted π _ hwrite, updateEach_permuted π _ hmoved,
    updateEach_permuted ρ _ hpush]

variable [DecidableEq σ] [DecidableEq α]

/-- The last rule for a configuration has the same place among the rules in another order. -/
theorem latest?_rearranged (rules : List (Rule σ α)) (key : Key σ α) :
    latest? (rules.map (Rule.rearranged π ρ)) (key.rearranged π ρ) =
      (latest? rules key).map (Action.rearranged π ρ) := by
  induction rules using List.reverseRecOn with
  | nil => rfl
  | append_singleton rules rule ih =>
    rw [List.map_append, List.map_singleton, latest?_concat, latest?_concat, List.length_map, ih]
    have hkey : (rule.rearranged π ρ).key = key.rearranged π ρ ↔ rule.key = key :=
      (Key.rearranged_injective π ρ).eq_iff
    by_cases h : rule.key = key
    · rw [if_pos h, if_pos (hkey.mpr h)]
      rfl
    · rw [if_neg h, if_neg (fun heq => h (hkey.mp heq))]

namespace Machine

/-! ## Machines in another order -/

section

omit [DecidableEq σ] [DecidableEq α]

/-- Machines of which one is like the other with its tapes and its stacks in another order. -/
structure Rearranges (m m' : Machine σ α) : Prop where
  config : m'.config = m.config
  state : m'.state = m.state
  contents : m'.contents = m.contents.rearranged π ρ
  stored : m'.stored = m.stored.map (Contents.rearranged π ρ)
  stepCount : m'.stepCount = m.stepCount

variable {π ρ} {m m' : Machine σ α}

theorem Rearranges.key (h : m.Rearranges π ρ m') : m'.key = m.key.rearranged π ρ := by
  simp only [Machine.key, symbols, tops, Key.rearranged, h.state, h.contents, Contents.rearranged,
    map_permuted]

theorem Rearranges.isInitialized (h : m.Rearranges π ρ m') :
    m'.isInitialized = m.isInitialized := by
  rw [Machine.isInitialized, h.stored, Option.isSome_map]
  rfl

end

/-- Machines in another order whose rules are so too, and that have failed at the same configuration if they
have. -/
structure Mirrors [Quoted σ] [Quoted α] (m m' : Machine σ α) : Prop extends
    m.Rearranges π ρ m' where
  lookup : ∀ key, m'.table.lookup (key.rearranged π ρ) =
    (m.table.lookup key).map (Action.rearranged π ρ)
  fault : (m.fault = none ∧ m'.fault = none) ∨
    ∃ key : Key σ α, m.fault = some (undefinedTransition key) ∧
      m'.fault = some (undefinedTransition (key.rearranged π ρ))
  wellFormed : m.WellFormed

namespace Mirrors

variable {π ρ} [Quoted σ] [Quoted α] {m m' : Machine σ α}

theorem fault_eq_none_iff (h : m.Mirrors π ρ m') : m'.fault = none ↔ m.fault = none := by
  rcases h.fault with ⟨hf, hf'⟩ | ⟨key, hf, hf'⟩ <;> simp [hf, hf']

theorem lookup_key (h : m.Mirrors π ρ m') :
    m'.table.lookup m'.key = (m.table.lookup m.key).map (Action.rearranged π ρ) := by
  rw [h.key, h.lookup]

theorem isHalted (h : m.Mirrors π ρ m') : m'.isHalted = m.isHalted := by
  rw [Machine.isHalted, h.isInitialized, h.state, h.config]
  rfl

theorem live_iff (h : m.Mirrors π ρ m') : m'.Live ↔ m.Live :=
  live_congr h.isInitialized h.fault_eq_none_iff h.isHalted

theorem atRest_iff (h : m.Mirrors π ρ m') : m'.AtRest ↔ m.AtRest := by
  constructor
  · rintro ⟨hf, hh⟩
    exact ⟨h.fault_eq_none_iff.mp hf, h.isHalted ▸ hh⟩
  · rintro ⟨hf, hh⟩
    exact ⟨h.fault_eq_none_iff.mpr hf, h.isHalted.trans hh⟩

theorem applies_iff (h : m.Mirrors π ρ m') : m'.Applies ↔ m.Applies := by
  rw [Machine.applies_iff, Machine.applies_iff, h.live_iff, h.lookup_key]
  simp only [Option.map_eq_some_iff]
  constructor
  · rintro ⟨hlive, -, a, ha, -⟩
    exact ⟨hlive, a, ha⟩
  · rintro ⟨hlive, a, ha⟩
    exact ⟨hlive, _, a, ha, rfl⟩

/-! ## What a cycle leaves -/

theorem apply (h : m.Mirrors π ρ m') (hlive : m.Live) {a : Action σ α} (ha : a ∈ m.table.actions) :
    (m.apply a).Mirrors π ρ (m'.apply (a.rearranged π ρ)) where
  config := h.config
  state := rfl
  contents := by
    -- a rule of the table has a value for each tape and each stack
    have hexact := h.wellFormed.appliesExactly hlive.initialized ha
    have hwrite : a.rule.write.length = m.contents.popAll.tapes.length := hexact.writes
    have hmove : a.rule.directions.length = m.contents.popAll.tapes.length := hexact.moves
    have hpush : a.rule.push.length = m.contents.popAll.pushdowns.length := by
      rw [Contents.popAll, List.length_map, hexact.pushes]
    show m'.contents.popAll.apply (a.rule.rearranged π ρ) = _
    rw [h.contents, Contents.popAll_rearranged, Contents.apply_rearranged π ρ hwrite hmove hpush]
    rfl
  stored := h.stored
  stepCount := congrArg (· + 1) h.stepCount
  lookup := h.lookup
  fault := h.fault
  wellFormed := h.wellFormed.apply hlive a

theorem fail (h : m.Mirrors π ρ m') (hlive : m.Live) : m.fail.Mirrors π ρ m'.fail where
  config := h.config
  state := h.state
  contents := by
    show m'.spoiled = m.spoiled.rearranged π ρ
    unfold spoiled
    rw [h.config, h.contents, Contents.popAll_rearranged]
    cases m.config.mode <;> rfl
  stored := h.stored
  stepCount := h.stepCount
  lookup := h.lookup
  fault := by
    refine .inr ⟨m.key, rfl, ?_⟩
    rw [← h.key]
    rfl
  wellFormed := h.wellFormed.fail hlive

/-- A cycle leaves the machines in the same orders, and it has the same answer unless it fails. -/
theorem step (h : m.Mirrors π ρ m') :
    m.step.1.Mirrors π ρ m'.step.1 ∧ ∀ p, m'.step.2 = .ok p ↔ m.step.2 = .ok p := by
  by_cases hlive : m.Live
  · have hlive' := h.live_iff.mpr hlive
    have hlookup := h.lookup_key
    cases ha : m.table.lookup m.key with
    | some a =>
      rw [ha] at hlookup
      rw [step_of_lookup_some hlive ha, step_of_lookup_some hlive' hlookup, h.config]
      exact ⟨h.apply hlive (Table.mem_of_lookup ha), fun p => Iff.rfl⟩
    | none =>
      rw [ha] at hlookup
      rw [step_of_lookup_none hlive ha, step_of_lookup_none hlive' hlookup]
      exact ⟨h.fail hlive, fun p => by simp⟩
  · have hlive' : ¬m'.Live := fun hlive' => hlive (h.live_iff.mp hlive')
    rw [step_of_not_live hlive, step_of_not_live hlive']
    refine ⟨h, ?_⟩
    rcases h.fault with ⟨hf, hf'⟩ | ⟨key, hf, hf'⟩
    · intro p
      rw [answer_congr_of_not_live hlive hlive' h.isInitialized (hf'.trans hf.symm)]
    · cases hi : m.isInitialized with
      | false =>
        simp [step_of_not_initialized hi, step_of_not_initialized (h.isInitialized.trans hi)]
      | true => simp [step_of_fault hi hf, step_of_fault (h.isInitialized.trans hi) hf']

/-! ## Runs -/

theorem stepped (h : m.Mirrors π ρ m') (n : Nat) : (m.stepped n).Mirrors π ρ (m'.stepped n) := by
  induction n with
  | zero => exact h
  | succ n ih => exact ih.step.1

theorem appliesFor_iff (h : m.Mirrors π ρ m') {n : Nat} : m'.AppliesFor n ↔ m.AppliesFor n := by
  constructor
  · intro happlies i hi
    exact (h.stepped i).applies_iff.mp (happlies i hi)
  · intro happlies i hi
    exact (h.stepped i).applies_iff.mpr (happlies i hi)

/-- A run counts the same or fails in the same cycle. -/
theorem runFor (h : m.Mirrors π ρ m') (hi : m.isInitialized = true) (hf : m.fault = none)
    (limit : Nat) :
    (m.runFor limit).1.Mirrors π ρ (m'.runFor limit).1 ∧
      ((∃ x, (m.runFor limit).2 = .ok x ∧ (m'.runFor limit).2 = .ok x) ∨
        ∃ x < limit, m.AppliesFor x ∧ m'.AppliesFor x ∧
          (m.runFor limit).2 = .error (undefinedTransition (m.stepped x).key) ∧
          (m'.runFor limit).2 =
            .error (undefinedTransition ((m.stepped x).key.rearranged π ρ))) := by
  rcases appliesFor_or_stops m limit with happlies | ⟨x, hx, hfirst, hstops⟩
  · rw [runFor_of_appliesFor happlies, runFor_of_appliesFor (h.appliesFor_iff.mpr happlies)]
    exact ⟨h.stepped limit, .inl ⟨limit, rfl, rfl⟩⟩
  · have hx' := h.stepped x
    have hfirst' := h.appliesFor_iff.mpr hfirst
    have hstops' : ¬(m'.stepped x).Applies := fun happlies => hstops (hx'.applies_iff.mp happlies)
    have hinitialized : (m.stepped x).isInitialized = true := by
      rw [isInitialized_stepped, hi]
    rcases atRest_or_unmatched hinitialized (hfirst.fault_eq_none hf) hstops with
      hrest | ⟨hlive, ha⟩
    · rw [runFor_of_stops hfirst hstops hx, runFor_of_stops hfirst' hstops' hx,
        hrest.concluded_eq, (hx'.atRest_iff.mpr hrest).concluded_eq]
      exact ⟨hx', .inl ⟨x, rfl, rfl⟩⟩
    · have ha' : (m'.stepped x).table.lookup (m'.stepped x).key = none := by
        rw [hx'.lookup_key, ha]
        rfl
      have hlive' := hx'.live_iff.mpr hlive
      have hrun := runFor_eq_error_iff.mpr ⟨x, hx, hfirst, step_of_lookup_none hlive ha⟩
      have hrun' := runFor_eq_error_iff.mpr ⟨x, hx, hfirst', step_of_lookup_none hlive' ha'⟩
      rw [hrun, hrun', hx'.key]
      exact ⟨hx'.fail hlive, .inr ⟨x, hx, hfirst, hfirst', rfl, rfl⟩⟩

end Mirrors

/-! ## Building in another order -/

variable [Quoted σ] [Quoted α]

/-- A machine that is being built has heeded all calls that add something but the registrations of rules that
are not balanced. -/
theorem heeded_of_additions {m : Machine σ α} (hm : m.isInitialized = false)
    {calls : List (Operation σ α)} (hcalls : ∀ op ∈ calls, op.IsAddition) :
    m.heeded calls = calls.filter (fun op => op.Adds) ∧ (m.after calls).isInitialized = false := by
  induction calls generalizing m with
  | nil => exact ⟨rfl, hm⟩
  | cons op calls ih =>
    obtain ⟨hop, hcalls⟩ := List.forall_mem_cons.mp hcalls
    by_cases hadds : op.Adds
    · obtain ⟨hheeded, hbuilding⟩ := heeded_of_adds hm (List.forall_mem_singleton.mpr hadds)
      have hone : (m.heeded? op).toList = [op] := by
        simpa [heeded] using hheeded
      obtain ⟨hrest, hafter⟩ := ih hbuilding hcalls
      refine ⟨?_, hafter⟩
      show (m.heeded? op).toList ++ (m.after [op]).heeded calls = _
      rw [hone, hrest]
      simp [hadds]
    · obtain ⟨f, hperform⟩ : ∃ f, m.perform op = (m, .error f) := by
        cases op with
        | addAction rule =>
          obtain ⟨f, -, hregister⟩ := m.table.register_of_not_balanced hadds
          refine ⟨f, ?_⟩
          rw [perform, addAction, ensureBuilding_eq_ok_iff.mpr hm, hregister]
          rfl
        | addTape content => exact absurd trivial hadds
        | addStack content => exact absurd trivial hadds
        | init => exact hop.elim
        | step => exact hop.elim
        | runFor limit => exact hop.elim
        | run fuel => exact hop.elim
        | reset => exact hop.elim
      obtain ⟨hrest, hafter⟩ := ih hm hcalls
      have hnone : m.heeded? op = none := heeded?_of_error (congrArg Prod.snd hperform)
      rw [heeded, hnone, after, hperform]
      refine ⟨?_, hafter⟩
      simpa [hadds] using hrest

section

variable {π ρ} {calls calls' : List (Operation σ α)}
  {tapes pushdowns : List (List α)} {rules : List (Rule σ α)}

/-- The machine that calls have built from what they add. -/
theorem built_of_gathers (config : Config σ α) (h : Operation.Gathers calls tapes pushdowns rules) :
    ((new config).after calls).isInitialized = false ∧
      ((new config).after calls).contents =
        ⟨tapes.map (.ofList config.marks), pushdowns.map (.ofList config.marks)⟩ ∧
      ((new config).after calls).table.Records (rules.filter fun r => r.Balanced) := by
  obtain ⟨hheeded, hbuilding⟩ := heeded_of_additions (m := new config) rfl h.additions
  obtain ⟨htapes, hpushdowns, hrecords, -⟩ := built_of_new (prepares_of_building hbuilding)
  rw [hheeded] at htapes hpushdowns hrecords
  rw [Operation.filterMap_filter_adds fun _ => Operation.tape?_eq_none, h.tapes] at htapes
  rw [Operation.filterMap_filter_adds fun _ => Operation.stack?_eq_none, h.pushdowns] at hpushdowns
  rw [Operation.filterMap_rule?_filter, h.rules] at hrecords
  refine ⟨hbuilding, ?_, hrecords⟩
  rw [← htapes, ← hpushdowns]

/-- Initialization succeeds for the one order if it does for the other. -/
theorem mirrors_of_init (config : Config σ α) (h : Operation.Gathers calls tapes pushdowns rules)
    (h' : Operation.Gathers calls' (permuted π tapes) (permuted ρ pushdowns)
      (rules.map (Rule.rearranged π ρ)))
    {m : Machine σ α} (hinit : ((new config).after calls).init = (m, .ok ())) :
    ∃ m', ((new config).after calls').init = (m', .ok ()) ∧ m.Mirrors π ρ m' ∧
      m.isInitialized = true ∧ m.fault = none := by
  obtain ⟨-, hcontents, hrecords⟩ := built_of_gathers config h
  obtain ⟨hbuilding', hcontents', hrecords'⟩ := built_of_gathers config h'
  have hrearranged : ((new config).after calls').contents =
      ((new config).after calls).contents.rearranged π ρ := by
    rw [hcontents, hcontents', Contents.rearranged, map_permuted, map_permuted]
  -- the rules that are refused are the same
  have hbalanced : ((rules.map (Rule.rearranged π ρ)).filter fun r => r.Balanced) =
      (rules.filter fun r => r.Balanced).map (Rule.rearranged π ρ) := by
    rw [List.filter_map]
    congr 2
    funext r
    simp [Rule.balanced_rearranged_iff]
  rw [hbalanced] at hrecords'
  have hwf : ((new config).after calls).WellFormed := (wellFormed_new config).after calls
  obtain ⟨hbuilding, htapes, hactions, hfits, rfl⟩ := init_eq_ok_iff.mp hinit
  have htapes' : ((new config).after calls').contents.tapes ≠ [] := by
    rw [hrearranged]
    exact fun hnil => htapes (permuted_eq_nil_iff.mp hnil)
  have hactions' : ((new config).after calls').table.actions ≠ [] := by
    rw [Ne, ← List.isEmpty_iff] at hactions ⊢
    intro hempty
    refine hactions (hrecords.isEmpty_iff.mpr ?_)
    exact List.map_eq_nil_iff.mp (hrecords'.isEmpty_iff.mp hempty)
  have hfits' : ∀ a ∈ ((new config).after calls').table.actions,
      a.rule.key.Fits ((new config).after calls').contents := by
    rw [hrearranged]
    apply (hrecords'.forall_key_iff (P := fun key =>
      key.Fits (((new config).after calls).contents.rearranged π ρ))).mpr
    intro r' hr'
    obtain ⟨r, hr, rfl⟩ := List.mem_map.mp hr'
    have hkey := (hrecords.forall_key_iff
      (P := fun key => key.Fits ((new config).after calls).contents)).mp hfits r hr
    exact hkey.rearranged π ρ
  refine ⟨_, init_eq_ok_iff.mpr ⟨hbuilding', htapes', hactions', hfits', rfl⟩, ?_, rfl, ?_⟩
  · have hconfig : ((new config).after calls').config = ((new config).after calls).config := by
      rw [config_after, config_after]
    have hfault := (hwf.untouched hbuilding).fault
    have hfault' := (((wellFormed_new config).after calls').untouched hbuilding').fault
    refine ⟨⟨hconfig, congrArg Config.initial hconfig, hrearranged, congrArg some hrearranged, rfl⟩,
      ?_, .inl ⟨hfault, hfault'⟩, hwf.change (.init hbuilding htapes hactions hfits)⟩
    intro key
    show ((new config).after calls').table.lookup _ = (((new config).after calls).table.lookup _).map _
    rw [hrecords.lookup, hrecords'.lookup, latest?_rearranged]
  · exact (hwf.untouched hbuilding).fault

end

/-- The order of the tapes and that of the stacks are immaterial. A machine that is built from the same tapes
and the same stacks in other orders, and from the same actions with their values in these orders, initializes
as well; it is the same but for the orders after each cycle, with the same action taken next, and also after a
run, which counts the same or fails in the same cycle, at the same configuration but for the orders. -/
theorem order_immaterial (config : Config σ α) {calls calls' : List (Operation σ α)}
    {tapes pushdowns : List (List α)} {rules : List (Rule σ α)}
    (h : Operation.Gathers calls tapes pushdowns rules)
    (π : Perm (Fin tapes.length)) (ρ : Perm (Fin pushdowns.length))
    (h' : Operation.Gathers calls' (permuted π tapes) (permuted ρ pushdowns)
      (rules.map (Rule.rearranged π ρ)))
    {m : Machine σ α} (hinit : ((new config).after calls).init = (m, .ok ())) :
    ∃ m', ((new config).after calls').init = (m', .ok ()) ∧
      (∀ k, (m.stepped k).Rearranges π ρ (m'.stepped k) ∧
        (m'.stepped k).table.lookup (m'.stepped k).key =
          ((m.stepped k).table.lookup (m.stepped k).key).map (Action.rearranged π ρ) ∧
        ∀ p, (m'.stepped k).step.2 = .ok p ↔ (m.stepped k).step.2 = .ok p) ∧
      ∀ limit, (m.runFor limit).1.Rearranges π ρ (m'.runFor limit).1 ∧
        ((∃ x, (m.runFor limit).2 = .ok x ∧ (m'.runFor limit).2 = .ok x) ∨
          ∃ x < limit, m.AppliesFor x ∧ m'.AppliesFor x ∧
            (m.runFor limit).2 = .error (undefinedTransition (m.stepped x).key) ∧
            (m'.runFor limit).2 =
              .error (undefinedTransition ((m.stepped x).key.rearranged π ρ))) := by
  obtain ⟨m', hinit', hmirrors, hi, hf⟩ := mirrors_of_init config h h' hinit
  refine ⟨m', hinit', ?_, ?_⟩
  · intro k
    have hk := hmirrors.stepped k
    exact ⟨hk.toRearranges, hk.lookup_key, hk.step.2⟩
  · intro limit
    obtain ⟨hafter, hresult⟩ := hmirrors.runFor hi hf limit
    exact ⟨hafter.toRearranges, hresult⟩

/-- Two tapes and two stacks, each pair swapped, with an action that is taken once. -/
theorem order_immaterial_swapped :
    let config : Config Int Int := ⟨0, 1, ⟨0, 9⟩, .consume⟩
    let rule : Rule Int Int := ⟨⟨0, [1, 2], [3, 4]⟩, [5, 6], [7, 8], [.right, .stay], 0⟩
    let rule' : Rule Int Int := ⟨⟨0, [2, 1], [4, 3]⟩, [6, 5], [8, 7], [.stay, .right], 0⟩
    let calls := [.addTape [1], .addTape [2], .addStack [3], .addStack [4], .addAction rule]
    let calls' := [.addAction rule', .addStack [4], .addTape [2], .addStack [3], .addTape [1]]
    let failing : Key Int Int := ⟨0, [0, 6], [7, 8]⟩
    let swap : Perm (Fin 2) := Equiv.swap 0 1
    ∃ m m' : Machine Int Int,
      ((new config).after calls).init = (m, .ok ()) ∧
      ((new config).after calls').init = (m', .ok ()) ∧
      (m.stepped 1).Rearranges swap swap (m'.stepped 1) ∧
      m.step.2 = .ok (.running ⟨0⟩) ∧ m'.step.2 = .ok (.running ⟨0⟩) ∧
      (m.runFor 2).2 = .error (undefinedTransition failing) ∧
      ∃ x < 2, (m'.runFor 2).2 =
        .error (undefinedTransition ((m.stepped x).key.rearranged swap swap)) := by
  intro config rule rule' calls calls' failing swap
  have h : Operation.Gathers calls [[1], [2]] [[3], [4]] [rule] :=
    ⟨by simp [calls, Operation.IsAddition], rfl, rfl, rfl⟩
  have h' : Operation.Gathers calls' (permuted swap [[1], [2]]) (permuted swap [[3], [4]])
      ([rule].map (Rule.rearranged swap swap)) :=
    ⟨by simp [calls', Operation.IsAddition], by decide, by decide, by decide⟩
  obtain ⟨m, hinit, hstep, hfails⟩ : ∃ m : Machine Int Int,
      ((new config).after calls).init = (m, .ok ()) ∧ m.step.2 = .ok (.running ⟨0⟩) ∧
        (m.runFor 2).2 = .error (undefinedTransition failing) :=
    ⟨_, rfl, by decide, by decide⟩
  obtain ⟨m', hinit', hcycles, hruns⟩ := order_immaterial config h swap swap h' hinit
  refine ⟨m, m', hinit, hinit', (hcycles 1).1, hstep, ((hcycles 0).2.2 _).mpr hstep, hfails, ?_⟩
  rcases (hruns 2).2 with ⟨x, hok, -⟩ | ⟨x, hx, -, -, -, herror⟩
  · cases hfails.symm.trans hok
  · exact ⟨x, hx, herror⟩

end Machine

end TapeMachine
