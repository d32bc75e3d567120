import Mathlib.Data.Finset.Card
import TapeMachine.Proofs.Table.Latest

/-!
# The entries of a table

A table lists one action for each key, under identifiers that differ (`Table.Orderly`). Of a table that
records a list of rules, its entries are therefore just the answers of its look-up
(`mem_actions_iff`), and its size is the number of different keys among the rules
(`Records.size_eq`). Together with the answers themselves this is all that can be seen of a table: it is
a map from keys in which the last rule wins (`Table.LastWins`).

Calls for a registration, refused ones included, leave a table that records the rules accepted
(`records_afterAll`).
-/

namespace TapeMachine

variable {σ α : Type}

/-- The keys of a table's actions. -/
def Table.keys (t : Table σ α) : List (Key σ α) :=
  t.actions.map fun a => a.rule.key

/-- A table whose actions are for different keys and have different identifiers, all given before. -/
structure Table.Orderly (t : Table σ α) : Prop where
  keys : t.keys.Nodup
  ids : (t.actions.map Action.id).Nodup
  given : ∀ a ∈ t.actions, a.id.index < t.registered

instance (r : Rule σ α) : Decidable r.Balanced :=
  decidable_of_iff (r.write.length = r.key.read.length ∧
      r.directions.length = r.key.read.length ∧ r.push.length = r.key.pop.length)
    ⟨fun h => ⟨h.1, h.2.1, h.2.2⟩, fun h => ⟨h.write, h.directions, h.push⟩⟩

variable [DecidableEq σ] [DecidableEq α]

/-- A table that is the map of some rules in which the last rule for a key wins. Identifiers count the
rules from zero. -/
structure Table.LastWins (t : Table σ α) (rules : List (Rule σ α)) : Prop where
  found : ∀ key a, t.lookup key = some a ↔
    rules[a.id.index]? = some a.rule ∧ a.rule.key = key ∧
      ∀ i r, a.id.index < i → rules[i]? = some r → r.key ≠ key
  missing : ∀ key, t.lookup key = none ↔ ∀ r ∈ rules, r.key ≠ key
  listed : ∀ a, a ∈ t.actions ↔ t.lookup a.rule.key = some a
  keys : t.keys.Nodup ∧ ∀ key, key ∈ t.keys ↔ ∃ r ∈ rules, r.key = key
  size : t.size = (rules.map Rule.key).toFinset.card
  isEmpty : t.isEmpty = true ↔ rules = []
  ids : (t.actions.map Action.id).Nodup

namespace Table

/-- The table after calls for registrations. -/
def afterAll [Quoted σ] (t : Table σ α) (rules : List (Rule σ α)) : Table σ α :=
  rules.foldl (fun t rule => (t.register rule).1) t

variable {t : Table σ α} {rules : List (Rule σ α)}

omit [DecidableEq σ] [DecidableEq α] in
theorem orderly_empty : (empty : Table σ α).Orderly :=
  ⟨List.nodup_nil, List.nodup_nil, fun _ ha => by cases ha⟩

theorem Orderly.insert (h : t.Orderly) (rule : Rule σ α) : (t.insert rule).Orderly where
  keys := by
    show (rule.key :: List.map _ (t.actions.filter _)).Nodup
    refine List.nodup_cons.mpr ⟨?_, h.keys.sublist (List.filter_sublist.map _)⟩
    intro hmem
    obtain ⟨a, ha, hkey⟩ := List.mem_map.mp hmem
    simpa [hkey] using (List.mem_filter.mp ha).2
  ids := by
    show (⟨t.registered⟩ :: List.map Action.id (t.actions.filter _)).Nodup
    refine List.nodup_cons.mpr ⟨?_, h.ids.sublist (List.filter_sublist.map _)⟩
    intro hmem
    obtain ⟨a, ha, hid⟩ := List.mem_map.mp hmem
    have hlt := h.given a (List.mem_filter.mp ha).1
    rw [hid] at hlt
    exact Nat.lt_irrefl _ hlt
  given := by
    intro a ha
    rw [registered_insert]
    rcases List.mem_cons.mp ha with rfl | hother
    · exact Nat.lt_succ_self _
    · exact Nat.lt_succ_of_lt (h.given a (List.mem_filter.mp hother).1)

/-- The entries of a table are what it answers. -/
theorem Orderly.mem_actions_iff (h : t.Orderly) {a : Action σ α} :
    a ∈ t.actions ↔ t.lookup a.rule.key = some a := by
  constructor
  · intro ha
    have hfound : (t.lookup a.rule.key).isSome := by
      rw [lookup, List.find?_isSome]
      exact ⟨a, ha, by simp⟩
    obtain ⟨b, hb⟩ := Option.isSome_iff_exists.mp hfound
    -- the one that is found has the same key, so it is the same
    have hsame : b = a := List.inj_on_of_nodup_map h.keys (mem_of_lookup hb) ha (key_of_lookup hb)
    rw [hb, hsame]
  · exact mem_of_lookup

theorem mem_keys_iff {key : Key σ α} : key ∈ t.keys ↔ t.lookup key ≠ none := by
  rw [lookup, Ne, List.find?_eq_none, keys, List.mem_map]
  simp

theorem Records.mem_keys_iff (h : t.Records rules) {key : Key σ α} :
    key ∈ t.keys ↔ key ∈ rules.map Rule.key := by
  rw [Table.mem_keys_iff, h.lookup, Ne, latest?_eq_none_iff]
  simp

/-- The size of a table is the number of different keys that rules have been registered for. -/
theorem Records.size_eq (h : t.Records rules) (ht : t.Orderly) :
    t.size = (rules.map Rule.key).toFinset.card := by
  have hkeys : t.keys.toFinset = (rules.map Rule.key).toFinset := by
    ext key
    rw [List.mem_toFinset, List.mem_toFinset, h.mem_keys_iff]
  rw [← hkeys, List.toFinset_card_of_nodup ht.keys, keys, List.length_map, size]

/-- What holds of the keys of all actions holds of those of all rules, and the other way round. -/
theorem Records.forall_key_iff (h : t.Records rules) {P : Key σ α → Prop} :
    (∀ a ∈ t.actions, P a.rule.key) ↔ ∀ r ∈ rules, P r.key :=
  calc (∀ a ∈ t.actions, P a.rule.key)
    _ ↔ ∀ key ∈ t.keys, P key := List.forall_mem_map.symm
    _ ↔ ∀ key ∈ rules.map Rule.key, P key :=
      forall_congr' fun _ => imp_congr_left h.mem_keys_iff
    _ ↔ ∀ r ∈ rules, P r.key := List.forall_mem_map

theorem Records.isEmpty_iff (h : t.Records rules) : t.isEmpty = true ↔ rules = [] := by
  rw [isEmpty, List.isEmpty_iff]
  constructor
  · intro hactions
    rw [List.eq_nil_iff_forall_not_mem]
    intro r hr
    have hkey : r.key ∈ t.keys := h.mem_keys_iff.mpr (List.mem_map_of_mem hr)
    rw [keys, hactions] at hkey
    cases hkey
  · rintro rfl
    rw [List.eq_nil_iff_forall_not_mem]
    intro a ha
    have hkey : a.rule.key ∈ ([] : List (Rule σ α)).map Rule.key :=
      h.mem_keys_iff.mp (List.mem_map_of_mem ha)
    cases hkey

theorem Records.lastWins (h : t.Records rules) (ht : t.Orderly) : t.LastWins rules where
  found key a := by
    rw [h.lookup, latest?_eq_some_iff]
  missing key := by
    rw [h.lookup, latest?_eq_none_iff]
  listed _ := ht.mem_actions_iff
  keys := by
    refine ⟨ht.keys, fun key => ?_⟩
    rw [h.mem_keys_iff, List.mem_map]
  size := h.size_eq ht
  isEmpty := h.isEmpty_iff
  ids := ht.ids

/-! ## Calls for registrations -/

variable [Quoted σ]

/-- After calls a table is orderly and records the rules that were accepted. -/
theorem records_afterAll (calls : List (Rule σ α)) :
    ((empty : Table σ α).afterAll calls).Orderly ∧
      ((empty : Table σ α).afterAll calls).Records (calls.filter fun r => r.Balanced) := by
  induction calls using List.reverseRecOn with
  | nil => exact ⟨orderly_empty, records_empty⟩
  | append_singleton calls rule ih =>
    obtain ⟨horderly, hrecords⟩ := ih
    rw [afterAll, List.foldl_append, ← afterAll, List.filter_append]
    show ((afterAll empty calls).register rule).1.Orderly ∧
      ((afterAll empty calls).register rule).1.Records _
    by_cases h : rule.Balanced
    · rw [register_of_balanced _ h, List.filter_singleton, decide_eq_true h]
      exact ⟨horderly.insert rule, hrecords.insert rule⟩
    · obtain ⟨f, -, hregister⟩ := register_of_not_balanced (afterAll empty calls) h
      rw [hregister, List.filter_singleton, decide_eq_false h]
      exact ⟨horderly, by simpa using hrecords⟩

end Table

end TapeMachine
