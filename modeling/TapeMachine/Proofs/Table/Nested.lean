import Mathlib.Data.List.AList
import TapeMachine.Proofs.Table.Entries

/-!
# Tables as nested maps

The form in which a look-up takes three steps, one for each part of a key: from the state to a map, in it
from the symbols read to a map, and in that one from the symbols popped to the action. Keys with equal parts
share the outer maps, and the number of actions is counted on the side.

A nested table answers as the list of its rules does (`NestedTable.Records`), as a table does. So under
every sequence of registrations, refused ones included, both forms give the same answers, have the same
size and list the same actions (`registrations_last_wins`).
-/

namespace TapeMachine

variable {σ α : Type}

/-- A transition table by the parts of the keys. -/
structure NestedTable (σ α : Type) where
  /-- The actions by state, then by symbols read, then by symbols popped. -/
  states : AList fun _ : σ => AList fun _ : List α => AList fun _ : List α => Action σ α
  /-- The number of actions. -/
  size : Nat
  /-- How many registrations have succeeded. -/
  registered : Nat

namespace NestedTable

def empty : NestedTable σ α :=
  ⟨∅, 0, 0⟩

/-- All keys with their actions. -/
def listed (t : NestedTable σ α) : List (Key σ α × Action σ α) :=
  t.states.entries.flatMap fun s => s.2.entries.flatMap fun r => r.2.entries.map fun p =>
    (⟨s.1, r.1, p.1⟩, p.2)

variable [DecidableEq σ] [DecidableEq α]

/-- The maps for the symbols read in a state; none for a state without actions. -/
def reads (t : NestedTable σ α) (state : σ) :
    AList fun _ : List α => AList fun _ : List α => Action σ α :=
  (t.states.lookup state).getD ∅

/-- The actions for the symbols popped after a state and the symbols read. -/
def pops (t : NestedTable σ α) (state : σ) (read : List α) : AList fun _ : List α => Action σ α :=
  ((t.reads state).lookup read).getD ∅

/-- The action for exactly this configuration. -/
def lookup (t : NestedTable σ α) (key : Key σ α) : Option (Action σ α) := do
  let reads ← t.states.lookup key.state
  let pops ← reads.lookup key.read
  pops.lookup key.pop

/-- The table with a rule in place of the one with the same key. Maps that are missing are made. -/
def insert (t : NestedTable σ α) (rule : Rule σ α) : NestedTable σ α :=
  let key := rule.key
  let pops := t.pops key.state key.read
  let replaced := (pops.lookup key.pop).isSome
  { states := t.states.insert key.state <| (t.reads key.state).insert key.read <|
      pops.insert key.pop ⟨⟨t.registered⟩, rule⟩
    size := if replaced then t.size else t.size + 1
    registered := t.registered + 1 }

/-- The table after a registration, and what it answers. -/
def register [Quoted σ] (t : NestedTable σ α) (rule : Rule σ α) :
    NestedTable σ α × Except Fault ActionId :=
  match rule.arityFault? with
  | some f => (t, .error f)
  | none => (t.insert rule, .ok ⟨t.registered⟩)

/-- The table after calls for registrations. -/
def afterAll [Quoted σ] (t : NestedTable σ α) (rules : List (Rule σ α)) : NestedTable σ α :=
  rules.foldl (fun t rule => (t.register rule).1) t

/-! ## Look-up -/

/-- A look-up through maps that may be missing finds nothing in those that are. -/
theorem lookup_eq (t : NestedTable σ α) (key : Key σ α) :
    t.lookup key = (t.pops key.state key.read).lookup key.pop := by
  unfold lookup pops reads
  cases t.states.lookup key.state with
  | none => simp
  | some reads => cases hread : reads.lookup key.read <;> simp [hread]

theorem reads_insert (t : NestedTable σ α) (rule : Rule σ α) (state : σ) :
    (t.insert rule).reads state =
      if rule.key.state = state then
        (t.reads state).insert rule.key.read
          ((t.pops state rule.key.read).insert rule.key.pop ⟨⟨t.registered⟩, rule⟩)
      else t.reads state := by
  by_cases h : rule.key.state = state
  · subst h
    simp [insert, reads]
  · simp [insert, reads, h, AList.lookup_insert_ne (Ne.symm h)]

theorem pops_insert (t : NestedTable σ α) (rule : Rule σ α) (state : σ) (read : List α) :
    (t.insert rule).pops state read =
      if rule.key.state = state ∧ rule.key.read = read then
        (t.pops state read).insert rule.key.pop ⟨⟨t.registered⟩, rule⟩
      else t.pops state read := by
  show ((t.insert rule).reads state |>.lookup read).getD ∅ = _
  rw [reads_insert]
  by_cases hstate : rule.key.state = state
  · by_cases hread : rule.key.read = read
    · subst hread
      simp [hstate]
    · simp [hstate, hread, AList.lookup_insert_ne (Ne.symm hread), pops]
  · simp [hstate, pops]

theorem lookup_insert (t : NestedTable σ α) (rule : Rule σ α) (key : Key σ α) :
    (t.insert rule).lookup key =
      if rule.key = key then some ⟨⟨t.registered⟩, rule⟩ else t.lookup key := by
  rw [lookup_eq, lookup_eq, pops_insert]
  by_cases h : rule.key = key
  · subst h
    simp
  · rw [if_neg h]
    -- the keys differ in one of three parts
    by_cases hmaps : rule.key.state = key.state ∧ rule.key.read = key.read
    · have hpop : rule.key.pop ≠ key.pop := by
        intro hpop
        apply h
        calc rule.key = ⟨rule.key.state, rule.key.read, rule.key.pop⟩ := rfl
          _ = key := by rw [hmaps.1, hmaps.2, hpop]
      rw [if_pos hmaps, AList.lookup_insert_ne (Ne.symm hpop)]
    · rw [if_neg hmaps]

/-! ## The list of all actions -/

omit [DecidableEq σ] [DecidableEq α] in
/-- Lists made for the entries of a map have nothing in common if each item shows whose it is. -/
private theorem nodup_flatMap_entries {κ β γ : Type} (entries : AList fun _ : κ => β)
    {items : (Σ _ : κ, β) → List γ} (part : γ → κ) (hnodup : ∀ e, (items e).Nodup)
    (hpart : ∀ e, ∀ x ∈ items e, part x = e.1) : (entries.entries.flatMap items).Nodup := by
  refine List.nodup_flatMap.mpr ⟨fun e _ => hnodup e, ?_⟩
  refine entries.nodupKeys.pairwise_ne.imp ?_
  intro e e' hne x hx hx'
  exact hne ((hpart e x hx).symm.trans (hpart e' x hx'))

/-- The list has what the look-up finds, -/
theorem mem_listed_iff {t : NestedTable σ α} {key : Key σ α} {a : Action σ α} :
    (key, a) ∈ t.listed ↔ t.lookup key = some a := by
  obtain ⟨state, read, pop⟩ := key
  have hlookup : t.lookup ⟨state, read, pop⟩ = some a ↔
      ∃ reads pops, t.states.lookup state = some reads ∧ reads.lookup read = some pops ∧
        pops.lookup pop = some a := by
    simp [lookup, Option.bind_eq_some_iff]
  rw [hlookup]
  simp only [listed, List.mem_flatMap, List.mem_map]
  constructor
  · rintro ⟨⟨_, reads⟩, hreads, ⟨_, pops⟩, hpops, ⟨_, _⟩, ha, ⟨⟩⟩
    exact ⟨reads, pops, AList.mem_lookup_iff.mpr hreads, AList.mem_lookup_iff.mpr hpops,
      AList.mem_lookup_iff.mpr ha⟩
  · rintro ⟨reads, pops, hreads, hpops, ha⟩
    exact ⟨⟨state, reads⟩, AList.mem_lookup_iff.mp hreads, ⟨read, pops⟩,
      AList.mem_lookup_iff.mp hpops, ⟨pop, a⟩, AList.mem_lookup_iff.mp ha, rfl⟩

omit [DecidableEq σ] [DecidableEq α] in
/-- and no key twice. -/
theorem nodup_listed (t : NestedTable σ α) : (t.listed.map Prod.fst).Nodup := by
  simp only [listed, List.map_flatMap, List.map_map]
  apply nodup_flatMap_entries t.states Key.state
  · intro s
    apply nodup_flatMap_entries s.2 Key.read
    · intro r
      have hkeys : r.2.entries.map (Prod.fst ∘ fun p => ((⟨s.1, r.1, p.1⟩ : Key σ α), p.2)) =
          r.2.keys.map fun pop => ⟨s.1, r.1, pop⟩ := by
        simp [AList.keys, List.keys, Function.comp_def]
      rw [hkeys]
      exact r.2.keys_nodup.map fun _ _ h => congrArg Key.pop h
    · intro r key hkey
      obtain ⟨p, _, rfl⟩ := List.mem_map.mp hkey
      rfl
  · intro s key hkey
    obtain ⟨r, _, hkey⟩ := List.mem_flatMap.mp hkey
    obtain ⟨p, _, rfl⟩ := List.mem_map.mp hkey
    rfl

/-! ## Nested tables as lists of registrations -/

/-- A nested table that answers as the list of the rules registered in it. -/
structure Records (t : NestedTable σ α) (rules : List (Rule σ α)) : Prop where
  registered : t.registered = rules.length
  lookup : ∀ key, t.lookup key = latest? rules key
  size : t.size = (rules.map Rule.key).toFinset.card

theorem records_empty : (empty : NestedTable σ α).Records [] :=
  ⟨rfl, fun _ => rfl, rfl⟩

theorem Records.insert {t : NestedTable σ α} {rules : List (Rule σ α)} (h : t.Records rules)
    (rule : Rule σ α) : (t.insert rule).Records (rules ++ [rule]) where
  registered := by
    show t.registered + 1 = _
    rw [h.registered, List.length_append, List.length_singleton]
  lookup key := by
    rw [lookup_insert, latest?_concat, h.lookup, h.registered]
  size := by
    -- the innermost map has the key exactly if some rule has been registered for it
    have hreplaced : ((t.pops rule.key.state rule.key.read).lookup rule.key.pop).isSome ↔
        rule.key ∈ rules.map Rule.key := by
      rw [← lookup_eq, h.lookup, Option.isSome_iff_ne_none, Ne, latest?_eq_none_iff]
      simp
    show (if _ then t.size else t.size + 1) = _
    rw [List.map_append, List.toFinset_append, h.size]
    by_cases hkey : rule.key ∈ rules.map Rule.key
    · rw [if_pos (hreplaced.mpr hkey)]
      simp [hkey]
    · rw [if_neg (hreplaced.not.mpr hkey)]
      simp [hkey]

theorem Records.listed_perm {n : NestedTable σ α} {t : Table σ α} {rules : List (Rule σ α)}
    (hn : n.Records rules) (ht : t.Records rules) (horderly : t.Orderly) :
    n.listed.Perm (t.actions.map fun a => (a.rule.key, a)) := by
  have hpairs : (t.actions.map fun a => (a.rule.key, a)).Nodup := by
    apply List.Nodup.of_map Prod.fst
    rw [List.map_map]
    exact horderly.keys
  refine (List.perm_ext_iff_of_nodup n.nodup_listed.of_map hpairs).mpr ?_
  rintro ⟨key, a⟩
  rw [mem_listed_iff, hn.lookup, ← ht.lookup, List.mem_map]
  constructor
  · intro ha
    exact ⟨a, Table.mem_of_lookup ha, by rw [Table.key_of_lookup ha]⟩
  · rintro ⟨b, hb, ⟨⟩⟩
    exact horderly.mem_actions_iff.mp hb

variable [Quoted σ]

/-- The same calls are refused as on a table, with the same faults, and the others get the next number. -/
theorem snd_register_eq {n : NestedTable σ α} {t : Table σ α} (h : n.registered = t.registered)
    (rule : Rule σ α) : (n.register rule).2 = (t.register rule).2 := by
  unfold register Table.register
  cases rule.arityFault? with
  | some f => rfl
  | none => rw [h]

theorem records_afterAll (calls : List (Rule σ α)) :
    ((empty : NestedTable σ α).afterAll calls).Records (calls.filter fun r => r.Balanced) := by
  induction calls using List.reverseRecOn with
  | nil => exact records_empty
  | append_singleton calls rule ih =>
    rw [afterAll, List.foldl_append, ← afterAll, List.filter_append, List.filter_singleton]
    show ((afterAll empty calls).register rule).1.Records _
    unfold register
    by_cases h : rule.Balanced
    · rw [Rule.arityFault?_eq_none_iff.mpr h, decide_eq_true h]
      exact ih.insert rule
    · obtain ⟨f, hf⟩ := Option.ne_none_iff_exists'.mp (Rule.arityFault?_eq_none_iff.not.mpr h)
      rw [hf, decide_eq_false h]
      simpa using ih

end NestedTable

/-- After any calls for registrations a table is the map of the rules accepted in which the last one wins.
A further call is refused exactly if its rule is not balanced, which leaves the table as it is, and
otherwise answers how many have been accepted. A table of nested maps cannot be told from it: it
gives the same answers, has the same size and lists the same keys with the same actions. -/
theorem registrations_last_wins [DecidableEq σ] [DecidableEq α] [Quoted σ]
    (calls : List (Rule σ α)) :
    let accepted := calls.filter fun r => r.Balanced
    let t := (Table.empty : Table σ α).afterAll calls
    let n := (NestedTable.empty : NestedTable σ α).afterAll calls
    t.LastWins accepted ∧ t.registered = accepted.length ∧
      (∀ rule : Rule σ α, (rule.Balanced → (t.register rule).2 = .ok ⟨accepted.length⟩) ∧
        (¬rule.Balanced → (∃ f, (t.register rule).2 = .error f) ∧ (t.register rule).1 = t ∧
          (n.register rule).1 = n) ∧
        (n.register rule).2 = (t.register rule).2) ∧
      (∀ key, n.lookup key = t.lookup key) ∧ n.size = t.size ∧ n.registered = t.registered ∧
        n.listed.Perm (t.actions.map fun a => (a.rule.key, a)) := by
  intro accepted t n
  obtain ⟨horderly, ht⟩ := Table.records_afterAll calls
  have hn := NestedTable.records_afterAll calls
  have hregistered : n.registered = t.registered := hn.registered.trans ht.registered.symm
  refine ⟨ht.lastWins horderly, ht.registered, ?_, ?_, ?_, hregistered, hn.listed_perm ht horderly⟩
  · intro rule
    refine ⟨?_, ?_, NestedTable.snd_register_eq hregistered rule⟩
    · intro hrule
      rw [t.register_of_balanced hrule, ht.registered]
    · intro hrule
      obtain ⟨f, hf, hregister⟩ := t.register_of_not_balanced hrule
      rw [hregister]
      exact ⟨⟨f, rfl⟩, rfl, by simp only [NestedTable.register, hf]⟩
  · intro key
    rw [hn.lookup, ht.lookup]
  · rw [hn.size, ht.size_eq horderly]

end TapeMachine
