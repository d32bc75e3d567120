import TapeMachine.Proofs.Machine.Limits
import TapeMachine.Proofs.Program.WellFormed
import TapeMachine.Proofs.Session.Observers
import TapeMachine.Proofs.Table.Latest

/-!
# Cycles of a program's machine

Each cycle of a machine that was built from a program does what the text of one of its actions says: the last one
that is written for the configuration (`Program.LastFor`). Its place in the program is the identifier that
the cycle answers with, whatever actions it replaces, and each character of its parts counts for the tape or
stack at its place (`Program.Obeys`). A cycle fails exactly if no action is written for the configuration.

All that happens to the machine keeps its table and its configuration (`Program.Runs`), so this holds of every cycle
of every run, with a limit or without (`Program.DescribesRun`), and of what is shown of it in a session
(`Program.cycles_of_build`).
-/

namespace TapeMachine

namespace Program

/-! ## What the text says -/

/-- The action of a program that counts for a configuration, and its place. -/
structure LastFor (p : Program) (key : Key String Char) (i : Nat) (a : ActionText) : Prop where
  listed : p.actions[i]? = some a
  matching : a.key = key
  last : ∀ j b, i < j → p.actions[j]? = some b → b.key ≠ key

/-- A machine as an action leaves it. -/
structure Obeys (p : Program) (a : ActionText) (m m' : Machine String Char) : Prop where
  state : m'.state = a.next
  shape : m'.contents.shape = m.contents.shape
  /-- Each tape is written on by its character and moved by its token. -/
  tape : ∀ (i : Nat) (t : Tape Char), m.contents.tapes[i]? = some t → ∃ v c d,
    a.write.toList[i]? = some v ∧ a.tokens[i]? = some c ∧ p.ofToken? c = some d ∧
      m'.contents.tapes[i]? =
        some ((if v = p.noWrite then t else { t with current := v }).move d)
  /-- Each stack loses its top and gets its character on top. -/
  pushdown : ∀ (i : Nat) (s : Stack Char), m.contents.pushdowns[i]? = some s → ∃ v,
    a.push.toList[i]? = some v ∧ m'.contents.pushdowns[i]? =
      some (if v = p.noWrite then s.rest else { s.rest with topDown := v :: s.rest.topDown })

/-- What the program says of the next call for a cycle. -/
structure Describes (p : Program) (m : Machine String Char) : Prop where
  taken : m.Live → (∃ a ∈ p.actions, a.key = m.key) → ∃ i a, p.LastFor m.key i a ∧
    p.Obeys a m m.step.1 ∧ m.step.2 = .ok (if a.next = p.halt then .halted else .running ⟨i⟩)
  fails_iff : m.Live → ((∃ f, m.step.2 = .error f) ↔ ∀ a ∈ p.actions, a.key ≠ m.key)
  /-- No cycle is run on a machine that has halted or failed. -/
  idle : ¬m.Live → m.step.1 = m

/-- What the program says of a run with a limit. -/
structure DescribesRun (p : Program) (m : Machine String Char) (limit : Nat) : Prop where
  /-- Each cycle that is counted does what the action for its configuration says. -/
  taken : ∀ m' x, m.runFor limit = (m', .ok x) → m' = m.stepped x ∧ ∀ k < x, ∃ i a,
    p.LastFor (m.stepped k).key i a ∧ p.Obeys a (m.stepped k) (m.stepped (k + 1))
  fails_iff : m.fault = none → ((∃ f, (m.runFor limit).2 = .error f) ↔
    ∃ x < limit, (m.stepped x).Live ∧ ∀ a ∈ p.actions, a.key ≠ (m.stepped x).key)

variable {p : Program} {a : ActionText} {key : Key String Char}

/-! ## The table of a program -/

theorem records_table (p : Program) : p.table.Records (p.actions.map p.ruleOf) := by
  have hfold : ∀ (actions : List ActionText) (t : Table String Char) (rules : List (Rule String Char)),
      t.Records rules →
        (actions.foldl (fun t a => t.insert (p.ruleOf a)) t).Records (rules ++ actions.map p.ruleOf) := by
    intro actions
    induction actions with
    | nil =>
      intro t rules h
      rwa [List.map_nil, List.append_nil]
    | cons a actions ih =>
      intro t rules h
      have hrest := ih (t.insert (p.ruleOf a)) _ (h.insert (p.ruleOf a))
      rwa [List.append_assoc] at hrest
  exact hfold p.actions .empty [] Table.records_empty

/-- What is looked up is the last action for the configuration, and its place. -/
theorem lookup_table_eq_some_iff {b : Action String Char} :
    p.table.lookup key = some b ↔ ∃ a, p.LastFor key b.id.index a ∧ b.rule = p.ruleOf a := by
  rw [(records_table p).lookup, latest?_eq_some_iff]
  simp only [List.getElem?_map, Option.map_eq_some_iff]
  constructor
  · rintro ⟨⟨a, ha, hrule⟩, hkey, hlater⟩
    refine ⟨a, ⟨ha, ?_, ?_⟩, hrule.symm⟩
    · rw [← hkey, ← hrule]
      rfl
    · exact fun j c hj hc => hlater j (p.ruleOf c) hj ⟨c, hc, rfl⟩
  · rintro ⟨a, ⟨ha, hkey, hlast⟩, hrule⟩
    refine ⟨⟨a, ha, hrule.symm⟩, ?_, ?_⟩
    · rw [hrule]
      exact hkey
    · rintro j r hj ⟨c, hc, rfl⟩
      exact hlast j c hj hc

theorem lookup_table_eq_none_iff : p.table.lookup key = none ↔ ∀ a ∈ p.actions, a.key ≠ key := by
  rw [(records_table p).lookup, latest?_eq_none_iff]
  exact List.forall_mem_map

/-- Every action of the table is that of a text. -/
theorem exists_ruleOf_of_mem_table {b : Action String Char} (hb : b ∈ p.table.actions) :
    ∃ a ∈ p.actions, b.rule = p.ruleOf a := by
  have hfold : ∀ (actions : List ActionText) (t : Table String Char),
      b ∈ (actions.foldl (fun t a => t.insert (p.ruleOf a)) t).actions →
        b ∈ t.actions ∨ ∃ a ∈ actions, b.rule = p.ruleOf a := by
    intro actions
    induction actions with
    | nil => exact fun t h => .inl h
    | cons a actions ih =>
      intro t h
      rcases ih _ h with h | ⟨a', ha', hrule⟩
      · rcases Table.mem_insert h with hrule | h
        · exact .inr ⟨a, List.mem_cons_self, hrule⟩
        · exact .inl h
      · exact .inr ⟨a', List.mem_cons_of_mem _ ha', hrule⟩
  rcases hfold p.actions .empty hb with h | h
  · cases h
  · exact h

/-! ## The rules of a program -/

/-- Each direction of a rule is that of the token at its place. -/
theorem getElem?_directions_ruleOf (h : p.Legible a) (i : Nat) :
    (p.ruleOf a).directions[i]? = (a.tokens[i]?).bind p.ofToken? := by
  have hspelled : ∀ c ∈ a.tokens, p.ofToken? c = some ((p.ofToken? c).getD .stay) := by
    intro c hc
    cases hd : p.ofToken? c with
    | none => exact absurd (h.spelled c hc) (ofToken?_eq_none_iff.mp hd)
    | some d => rfl
  have hdirections : (p.ruleOf a).directions = a.tokens.map fun c => (p.ofToken? c).getD .stay :=
    List.filterMap_eq_map_iff_forall_eq_some.mpr hspelled
  rw [hdirections, List.getElem?_map]
  cases hc : a.tokens[i]? with
  | none => rfl
  | some c => exact (hspelled c (List.mem_of_getElem? hc)).symm

theorem balanced_ruleOf (h : p.Legible a) : (p.ruleOf a).Balanced where
  write := by
    simpa only [ruleOf, ActionText.key, String.length_toList] using h.write
  directions := by
    have hspelled : (a.tokens.filter fun c => c ∉ p.spellings).map Fault.invalidDirection = [] := by
      simpa using h.spelled
    rw [length_directions_ruleOf hspelled, h.directions]
    exact String.length_toList.symm
  push := by
    simpa only [ruleOf, ActionText.key, String.length_toList] using h.push

/-! ## Machines of a program -/

theorem wellFormed_machine (h : p.WellFormed) : p.machine.WellFormed := by
  have hmarked : p.contents.Marked p.config.marks := by
    constructor
    · intro t ht
      obtain ⟨text, -, rfl⟩ := List.mem_map.mp ht
      exact Tape.marks_ofList _ _
    · intro s hs
      obtain ⟨text, -, rfl⟩ := List.mem_map.mp hs
      rfl
  have hfits : ∀ b ∈ p.table.actions, b.rule.key.Fits p.contents := by
    intro b hb
    obtain ⟨a, ha, hrule⟩ := exists_ruleOf_of_mem_table hb
    obtain ⟨hread, hpop⟩ := h.fits a ha
    rw [hrule]
    constructor
    · simpa only [ruleOf, ActionText.key, contents, String.length_toList, List.length_map] using hread
    · simpa only [ruleOf, ActionText.key, contents, String.length_toList, List.length_map] using hpop
  refine ⟨hmarked, ?_, ?_, ?_, ?_⟩
  · intro b hb
    obtain ⟨a, ha, hrule⟩ := exists_ruleOf_of_mem_table hb
    rw [hrule]
    exact balanced_ruleOf (h.legible a ha)
  · intro hbuilding
    cases hbuilding
  · rintro c ⟨⟩
    refine ⟨rfl, hmarked, ?_, fun hnil => h.actions (actions_table_eq_nil_iff.mp hnil), hfits⟩
    exact fun hnil => h.tapes (List.map_eq_nil_iff.mp hnil)
  · intro hfault
    exact absurd rfl hfault

/-- A machine that a program was built into, whatever has happened to it since. -/
structure Runs (p : Program) (m : Machine String Char) : Prop where
  config : m.config = p.config
  table : m.table = p.table
  initialized : m.isInitialized = true
  wellFormed : m.WellFormed

theorem runs_machine (h : p.WellFormed) : p.Runs p.machine :=
  ⟨rfl, rfl, rfl, wellFormed_machine h⟩

namespace Runs

variable {m m' : Machine String Char}

theorem change (h : p.Runs m) (hchange : Machine.Change m m') : p.Runs m' := by
  have hwellFormed := h.wellFormed.change hchange
  have hconfig := (Machine.config_change hchange).trans h.config
  rcases hchange.cases_of_initialized h.initialized with
    ⟨a, -, -, rfl⟩ | ⟨-, -, rfl⟩ | ⟨c, -, rfl⟩
  · exact ⟨hconfig, h.table, h.initialized, hwellFormed⟩
  · exact ⟨hconfig, h.table, h.initialized, hwellFormed⟩
  · exact ⟨hconfig, h.table, h.initialized, hwellFormed⟩

theorem after (h : p.Runs m) (ops : List (Operation String Char)) : p.Runs (m.after ops) :=
  Machine.after_induction ops (fun _ _ => Runs.change) h

theorem stepped (h : p.Runs m) (calls : Nat) : p.Runs (m.stepped calls) :=
  Machine.changes_induction (fun _ _ => Runs.change) h (Machine.changes_stepped m calls)

/-- A rule of the table is obeyed as the text has it. -/
theorem obeys (h : p.Runs m) (hlegible : p.Legible a) {b : Action String Char}
    (hb : b ∈ m.table.actions) (hrule : b.rule = p.ruleOf a) : p.Obeys a m (m.apply b) := by
  have hexact := h.wellFormed.appliesExactly h.initialized hb
  rw [hrule] at hexact
  have hmarks : m.config.marks.noWrite = p.noWrite := by
    rw [h.config]
    rfl
  refine ⟨?_, hexact.shape, ?_, ?_⟩
  · show b.rule.next = a.next
    rw [hrule]
    rfl
  · intro i t ht
    obtain ⟨v, d, t', hv, hd, ht', rfl, -⟩ := hexact.tape i t ht
    rw [getElem?_directions_ruleOf hlegible, Option.bind_eq_some_iff] at hd
    obtain ⟨c, hc, hcd⟩ := hd
    refine ⟨v, c, d, hv, hc, hcd, ?_⟩
    rw [ht', Tape.write, h.wellFormed.marked.tapes t (List.mem_of_getElem? ht), hmarks]
  · intro i s hs
    obtain ⟨v, hv, hs'⟩ := hexact.pushdown i s hs
    refine ⟨v, hv, ?_⟩
    have hrest : s.pop.2.marks.noWrite = p.noWrite := by
      rw [← hmarks, ← h.wellFormed.marked.pushdowns s (List.mem_of_getElem? hs)]
      rfl
    rw [hs', Stack.push, hrest]
    rfl

/-- The program describes every cycle of its machines. -/
theorem describes (hp : p.WellFormed) (h : p.Runs m) : p.Describes m where
  taken hlive := by
    rintro ⟨a, ha, hkey⟩
    have hfound : m.table.lookup m.key ≠ none := by
      rw [h.table]
      exact fun hnone => lookup_table_eq_none_iff.mp hnone a ha hkey
    obtain ⟨b, hb⟩ := Option.ne_none_iff_exists'.mp hfound
    have hlookup := hb
    rw [h.table] at hlookup
    obtain ⟨a, hlast, hrule⟩ := lookup_table_eq_some_iff.mp hlookup
    have hlegible := hp.legible a (List.mem_of_getElem? hlast.listed)
    refine ⟨b.id.index, a, hlast, ?_, ?_⟩
    · rw [Machine.step_of_lookup_some hlive hb]
      exact h.obeys hlegible (Table.mem_of_lookup hb) hrule
    · rw [Machine.step_of_lookup_some hlive hb, hrule, h.config]
      rfl
  fails_iff hlive := by
    rw [← lookup_table_eq_none_iff, ← h.table]
    constructor
    · rintro ⟨f, hf⟩
      cases hlookup : m.table.lookup m.key with
      | none => rfl
      | some b =>
        rw [Machine.step_of_lookup_some hlive hlookup] at hf
        cases hf
    · intro hnone
      exact ⟨_, congrArg Prod.snd (Machine.step_of_lookup_none hlive hnone)⟩
  idle hidle := Machine.step_of_not_live hidle

end Runs

/-- A cycle that does not fail has found an action. -/
theorem Describes.taken_of_ok {m : Machine String Char} (h : p.Describes m) (hlive : m.Live)
    {progress : Progress} (hok : m.step.2 = .ok progress) :
    ∃ i a, p.LastFor m.key i a ∧ p.Obeys a m m.step.1 ∧
      progress = if a.next = p.halt then .halted else .running ⟨i⟩ := by
  have hfound : ∃ a ∈ p.actions, a.key = m.key := by
    by_contra hnone
    push Not at hnone
    obtain ⟨f, hf⟩ := (h.fails_iff hlive).mpr hnone
    cases hok.symm.trans hf
  obtain ⟨i, a, hlast, hobeys, hstep⟩ := h.taken hlive hfound
  exact ⟨i, a, hlast, hobeys, Except.ok.inj (hok.symm.trans hstep)⟩

theorem Runs.describesRun {m : Machine String Char} (hp : p.WellFormed) (h : p.Runs m) (limit : Nat) :
    p.DescribesRun m limit where
  taken m' x hrun := by
    obtain ⟨happlies, hm', -⟩ := Machine.runFor_eq_ok hrun
    refine ⟨hm', fun k hk => ?_⟩
    obtain ⟨b, hlive, hstep⟩ := (happlies k hk).step_eq
    obtain ⟨i, a, hlast, hobeys, -⟩ :=
      ((h.stepped k).describes hp).taken_of_ok hlive (congrArg Prod.snd hstep)
    exact ⟨i, a, hlast, hobeys⟩
  fails_iff hf := by
    rw [Machine.runFor_fails_iff h.initialized hf]
    simp only [(h.stepped _).table, lookup_table_eq_none_iff]

/-! ## What is shown of a cycle -/

/-- What a snapshot tells of the call for a cycle that it was made after. -/
structure Explains (p : Program) (m : Machine String Char) (snapshot : Snapshot String Char) : Prop where
  running : snapshot.status = .running → ∃ i a, p.LastFor m.key i a ∧ p.Obeys a m m.step.1 ∧
    a.next ≠ p.halt ∧ snapshot = m.step.1.snapshot (some ⟨i⟩) .running
  halted : snapshot.status = .halted → m.Live → ∃ i a, p.LastFor m.key i a ∧ p.Obeys a m m.step.1 ∧
    a.next = p.halt
  final : snapshot.status ≠ .running → snapshot.action = none

section Explains

variable {m : Machine String Char} {snapshot : Snapshot String Char}

theorem Describes.explains_cycle (h : p.Describes m) :
    p.Explains m (cycleSnapshot m.step.1 m.step.2) := by
  cases hstep : m.step.2 with
  | error f =>
    refine ⟨fun hrunning => ?_, fun hhalted => ?_, fun _ => rfl⟩
    · cases hrunning
    · cases hhalted
  | ok progress =>
    cases progress with
    | halted =>
      refine ⟨fun hrunning => ?_, fun _ hlive => ?_, fun _ => rfl⟩
      · cases hrunning
      obtain ⟨i, a, hlast, hobeys, hprogress⟩ := h.taken_of_ok hlive hstep
      refine ⟨i, a, hlast, hobeys, ?_⟩
      by_contra hnext
      rw [if_neg hnext] at hprogress
      cases hprogress
    | running id =>
      obtain ⟨i, a, hlast, hobeys, hprogress⟩ :=
        h.taken_of_ok (Machine.live_of_running hstep) hstep
      have hnext : a.next ≠ p.halt := by
        intro hnext
        rw [if_pos hnext] at hprogress
        cases hprogress
      rw [if_neg hnext] at hprogress
      cases hprogress
      refine ⟨fun _ => ⟨i, a, hlast, hobeys, hnext, rfl⟩, fun hhalted => ?_,
        fun hfinal => absurd rfl hfinal⟩
      cases hhalted

theorem explains_cancelled (p : Program) (m : Machine String Char) :
    p.Explains m (m.snapshot none .cancelled) := by
  refine ⟨fun hrunning => ?_, fun hhalted => ?_, fun _ => rfl⟩
  · cases hrunning
  · cases hhalted

end Explains

/-! ## Runs -/

section Runs

variable {m : Machine String Char} {speed : Speed} {s₀ s₁ : Session String Char}
  {before : List (Event String Char)}

theorem exists_after_step (m' : Machine String Char) (h : ∃ ops, m' = m.after ops) :
    ∃ ops, m'.step.1 = m.after ops := by
  obtain ⟨ops, rfl⟩ := h
  refine ⟨ops ++ [.step], ?_⟩
  rw [Machine.after_append]
  rfl

/-- Whatever a session does to a machine comes to calls for a cycle. -/
theorem every_after {ops : List (Operation String Char)}
    (hnew : Session.new (m.after ops) speed = .ok s₀) (hbefore : s₀.follow? before = some s₁) :
    s₁.Every fun m' => ∃ ops', m' = m.after ops' :=
  (Session.Every.of_new (P := fun m' => ∃ ops', m' = m.after ops') ⟨ops, rfl⟩ hnew).follow?
    exists_after_step hbefore

end Runs

/-- Every cycle of a machine that was built from a program, in whatever run, does what the last action for its
configuration says and answers with the action's place, or fails because there is none. A run with a limit
is made of such cycles, and fails with the one that has no action; and in a session that is what is shown
of each cycle, whether a worker runs it or the handle. -/
theorem cycles_of_build {p : Program} {m : Machine String Char} (hbuild : p.build = .ok m) :
    (∀ ops calls, p.Describes ((m.after ops).stepped calls)) ∧
      (∀ ops limit, p.DescribesRun (m.after ops) limit) ∧
      ∀ ops speed s₀ before s₁, Session.new (m.after ops) speed = .ok s₀ →
        s₀.follow? before = some s₁ →
        (∀ snapshot, s₁.step.2 = .ok snapshot → ∃ ops',
          s₁.collect.1.machine? = some (m.after ops') ∧ p.Explains (m.after ops') snapshot) ∧
        ∀ observer s₂ after s, s₁.start observer .granted = (s₂, .ok ()) →
          s₂.follow? after = some s → ∃ ops', s₁.machine? = some (m.after ops') ∧
            ∀ k snapshot, s.delivered[k]? = some snapshot →
              p.Explains ((m.after ops').stepped k) snapshot := by
  obtain ⟨hp, rfl⟩ := build_eq_ok_iff.mp hbuild
  have hdescribes (ops : List (Operation String Char)) (calls : Nat) :
      p.Describes ((p.machine.after ops).stepped calls) :=
    (((runs_machine hp).after ops).stepped calls).describes hp
  refine ⟨hdescribes, fun ops limit => ((runs_machine hp).after ops).describesRun hp limit, ?_⟩
  intro ops speed s₀ before s₁ hnew hbefore
  have hevery := every_after hnew hbefore
  refine ⟨?_, ?_⟩
  · intro snapshot hstep
    obtain ⟨m₁, hm₁, rfl⟩ := Session.step_eq_ok hstep
    obtain ⟨ops', rfl⟩ := (hevery.collect exists_after_step).held m₁ hm₁
    exact ⟨ops', hm₁, (hdescribes ops' 0).explains_cycle⟩
  · intro observer s₂ after s hstart hafter
    obtain ⟨m₁, hm₁, hshown⟩ := Session.shown_of_start hnew hbefore hstart hafter
    obtain ⟨ops', rfl⟩ := hevery.held m₁ hm₁
    refine ⟨ops', hm₁, fun k snapshot hk => ?_⟩
    rcases hshown k snapshot hk with rfl | rfl
    · exact (hdescribes ops' k).explains_cycle
    · exact explains_cancelled p _

/-- A program with tokens of its own, whose second action replaces the first. -/
theorem cycles_of_build_replaced :
    let p : Program := {
      initial := "a", tapes := ["x"], directionTokens := some ⟨'p', 'q', 'r'⟩
      actions := [⟨"a", "x", "", "y", "", "p", "halt"⟩, ⟨"a", "x", "", "*", "", " q,", "b"⟩] }
    ∃ m s₀ s₂ s snapshot, p.build = .ok m ∧ Session.new m .unlimited = .ok s₀ ∧
      s₀.start .quiet .granted = (s₂, .ok ()) ∧
      s₂.follow? [.advance, .advance, .advance] = some s ∧ s.delivered[0]? = some snapshot ∧
      p.Describes m ∧ p.Explains m snapshot ∧ snapshot.action = some ⟨1⟩ := by
  intro p
  have hstep : p.machine.step.2 = .ok (.running ⟨1⟩) := by decide
  obtain ⟨m, hm⟩ : ∃ m, m = p.machine := ⟨_, rfl⟩
  have hbuild : p.build = .ok m := by
    rw [hm]
    rfl
  have hi : m.isInitialized = true := by
    rw [hm]
    rfl
  rw [← hm] at hstep
  let s₀ : Session String Char := ⟨some m, none, ⟨false, false, .unlimited⟩, false, .ready, #[]⟩
  have hnew : Session.new m .unlimited = .ok s₀ := if_pos hi
  obtain ⟨hdescribes, -, hsessions⟩ := cycles_of_build hbuild
  obtain ⟨-, hworkers⟩ := hsessions [] .unlimited s₀ [] s₀ hnew rfl
  obtain ⟨ops', hm', hshown⟩ :=
    hworkers .quiet _ [.advance, .advance, .advance] _ rfl rfl
  have hexplains := hshown 0 (cycleSnapshot m.step.1 m.step.2) rfl
  rw [← Option.some.inj hm'] at hexplains
  refine ⟨m, s₀, _, _, cycleSnapshot m.step.1 m.step.2, hbuild, hnew, rfl, rfl, rfl, hdescribes [] 0,
    hexplains, ?_⟩
  rw [hstep]
  rfl

end Program

end TapeMachine
