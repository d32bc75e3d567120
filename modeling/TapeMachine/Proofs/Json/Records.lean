import TapeMachine.Json.Record
import TapeMachine.Proofs.Json.Values

/-!
# Records as they are read

A record reader whose fields read the slots of a format gives exactly the records that the members of an
object describe (`RecordShape.Follows.reader`): the members in their order set one part after the other, and
what is left open at the closing brace is required or has its default. A list gives its elements to the
fields in their order.
-/

namespace TapeMachine.Json

variable {α : Type}

/-- The field reads what the slot says. -/
structure Field.Matches (field : Field α) (slot : Slot α) : Prop where
  name : field.name = slot.name
  required : field.required = slot.required
  setter : field.setter.Follows fun v set => ∃ b, slot.meaning v b ∧ set = slot.set b

/-- A field whose reader follows the meaning of a slot reads what the slot says. -/
theorem Field.matches_of_follows {β : Type} {value : Reader β} {meaning : Meaning β}
    (h : value.Follows meaning) (name : String) (required : Bool) (get : α → β) (set : β → α → α) :
    Field.Matches ⟨name, required, value.map set⟩ ⟨name, required, meaning, get, set⟩ :=
  ⟨rfl, rfl, h.map set⟩

/-- Lists that correspond item by item have a partner for each item. -/
theorem exists_mem_of_forall₂ {β γ : Type*} {R : β → γ → Prop} {xs : List β} {ys : List γ}
    (h : List.Forall₂ R xs ys) {x : β} (hx : x ∈ xs) : ∃ y ∈ ys, R x y := by
  induction h with
  | nil => cases hx
  | cons hxy _ ih =>
    rcases List.mem_cons.mp hx with rfl | hx
    · exact ⟨_, List.mem_cons_self, hxy⟩
    · obtain ⟨y, hy, hxy⟩ := ih hx
      exact ⟨y, List.mem_cons_of_mem _ hy, hxy⟩

/-- The fields read the slots of the format, in their order. -/
structure RecordShape.Follows (shape : RecordShape α) (F : Format α) : Prop where
  fields : List.Forall₂ Field.Matches shape.fields F.slots
  start : shape.start = F.start

/-! ## What the members still say -/

namespace Format

variable {F : Format α} {ms : List (String × Value)} {k : String} {v : Value} {slot : Slot α}
  {seen : List String} {x y : α}

variable (F) in
/-- From the record `x`, in which the names `seen` have occurred, the members lead to the record `y`. -/
structure Leads (seen : List String) (ms : List (String × Value)) (x y : α) : Prop where
  distinct : (F.known ms).Nodup
  fresh : ∀ k ∈ F.known ms, k ∉ seen
  complete : ∀ slot ∈ F.slots, slot.required = true → slot.name ∈ seen ∨ slot.name ∈ keys ms
  fills : F.Fills ms x y

theorem leads_start_iff : F.Leads [] ms F.start x ↔ F.Describes ms x := by
  rw [describes_iff]
  constructor
  · intro h
    refine ⟨h.distinct, fun slot hslot hrequired => ?_, h.fills⟩
    exact (h.complete slot hslot hrequired).resolve_left List.not_mem_nil
  · rintro ⟨hdistinct, hcomplete, hfills⟩
    exact ⟨hdistinct, fun _ _ => List.not_mem_nil,
      fun slot hslot hrequired => .inr (hcomplete slot hslot hrequired), hfills⟩

theorem leads_nil_iff :
    F.Leads seen [] x y ↔ (∀ slot ∈ F.slots, slot.required = true → slot.name ∈ seen) ∧ y = x := by
  constructor
  · intro h
    refine ⟨fun slot hslot hrequired => ?_, fills_nil.mp h.fills⟩
    exact (h.complete slot hslot hrequired).resolve_right List.not_mem_nil
  · rintro ⟨hcomplete, hy⟩
    exact ⟨.nil, fun k hk => (List.not_mem_nil hk).elim,
      fun slot hslot hrequired => .inl (hcomplete slot hslot hrequired), fills_nil.mpr hy⟩

/-- A member without a slot changes nothing. -/
theorem leads_cons_of_not_mem (hk : k ∉ F.names) :
    F.Leads seen ((k, v) :: ms) x y ↔ F.Leads seen ms x y := by
  have hkeys : ∀ slot ∈ F.slots, slot.name ∈ keys ((k, v) :: ms) ↔ slot.name ∈ keys ms := by
    intro slot hslot
    have hne : slot.name ≠ k := by
      rintro rfl
      exact hk (mem_names hslot)
    rw [keys, List.map_cons, List.mem_cons, or_iff_right hne]
    rfl
  constructor
  · rintro ⟨hdistinct, hfresh, hcomplete, hfills⟩
    rw [known_cons_of_not_mem hk] at hdistinct hfresh
    refine ⟨hdistinct, hfresh, fun slot hslot hrequired => ?_, (fills_cons_of_not_mem hk).mp hfills⟩
    exact (hcomplete slot hslot hrequired).imp_right (hkeys slot hslot).mp
  · rintro ⟨hdistinct, hfresh, hcomplete, hfills⟩
    rw [← known_cons_of_not_mem hk (v := v)] at hdistinct hfresh
    refine ⟨hdistinct, hfresh, fun slot hslot hrequired => ?_, (fills_cons_of_not_mem hk).mpr hfills⟩
    exact (hcomplete slot hslot hrequired).imp_right (hkeys slot hslot).mpr

/-- A member with a slot, which must not have occurred, sets that part. -/
theorem leads_cons_of_mem (hslot : slot ∈ F.slots) :
    F.Leads seen ((slot.name, v) :: ms) x y ↔
      slot.name ∉ seen ∧ ∃ b, slot.meaning v b ∧ F.Leads (slot.name :: seen) ms (slot.set b x) y := by
  have hname := mem_names hslot
  constructor
  · rintro ⟨hdistinct, hfresh, hcomplete, hfills⟩
    rw [known_cons_of_mem hname] at hdistinct hfresh
    obtain ⟨hnot, hdistinct⟩ := List.nodup_cons.mp hdistinct
    obtain ⟨hseen, hfresh⟩ := List.forall_mem_cons.mp hfresh
    have hkeys : slot.name ∉ keys ms := fun h => hnot (mem_known_iff.mpr ⟨h, hname⟩)
    obtain ⟨b, hb, hfills⟩ := (fills_cons_of_mem hslot hkeys).mp hfills
    refine ⟨hseen, b, hb, hdistinct, fun k hk => ?_, fun other hother hrequired => ?_, hfills⟩
    · rw [List.mem_cons, not_or]
      refine ⟨?_, hfresh k hk⟩
      rintro rfl
      exact hnot hk
    · have h := hcomplete other hother hrequired
      rw [keys, List.map_cons, List.mem_cons] at h
      rw [List.mem_cons, or_comm (a := _ = _), or_assoc]
      exact h
  · rintro ⟨hseen, b, hb, hdistinct, hfresh, hcomplete, hfills⟩
    have hnot : slot.name ∉ F.known ms := fun h => hfresh _ h List.mem_cons_self
    have hkeys : slot.name ∉ keys ms := fun h => hnot (mem_known_iff.mpr ⟨h, hname⟩)
    refine ⟨?_, ?_, fun other hother hrequired => ?_,
      (fills_cons_of_mem hslot hkeys).mpr ⟨b, hb, hfills⟩⟩
    · rw [known_cons_of_mem hname]
      exact List.nodup_cons.mpr ⟨hnot, hdistinct⟩
    · rw [known_cons_of_mem hname]
      exact List.forall_mem_cons.mpr ⟨hseen, fun k hk h => hfresh k hk (List.mem_cons_of_mem _ h)⟩
    · have h := hcomplete other hother hrequired
      rw [List.mem_cons, or_comm (a := _ = _), or_assoc] at h
      rw [keys, List.map_cons, List.mem_cons]
      exact h

end Format

/-! ## Lists -/

namespace RecordShape

variable {shape : RecordShape α} {F : Format α}

/-- Where another element follows, the list does not end. -/
theorem closeList_of_some {first : Bool} {u w : List Char} (hu : nextElement first u = .ok (some w))
    (x y : α) (t : List Char) : closeList x u ≠ .ok (y, t) := by
  intro hy
  unfold nextElement at hu
  unfold closeList at hy
  split at hu
  · cases hu
  · cases hu
  · rename_i hclose hs
    rw [hs] at hy
    split at hy
    · cases hy
    · rename_i heq
      cases heq
      exact hclose rfl
    · cases hy
    · cases hy

/-- At the end of the list the remaining fields have their defaults. -/
theorem elements_closed {fields : List (Field α)} {slots : List (Slot α)}
    (hfields : List.Forall₂ Field.Matches fields slots) {a : List Char} (ha : Blank a) (r : List Char)
    (index : Nat) (x y : α) (t : List Char) :
    shape.elements index x (a ++ ']' :: r) fields = .ok (y, t) ↔
      ((∀ slot ∈ slots, slot.required = false) ∧ y = x) ∧ t = r := by
  induction hfields generalizing index with
  | nil =>
    rw [elements, closeList, skipSpace_blank_cons ha (by decide)]
    constructor
    · intro hy
      cases hy
      exact ⟨⟨fun slot hslot => (List.not_mem_nil hslot).elim, rfl⟩, rfl⟩
    · rintro ⟨⟨-, rfl⟩, rfl⟩
      rfl
  | cons hm _ ih =>
    rw [elements, nextElement_closed ha]
    simp only [hm.required]
    rw [List.forall_mem_cons]
    split
    · rename_i hrequired
      constructor
      · intro hy
        cases hy
      · rintro ⟨⟨⟨hopen, -⟩, -⟩, -⟩
        rw [hopen] at hrequired
        cases hrequired
    · rename_i hrequired
      rw [ih, and_iff_right (Bool.eq_false_iff.mpr hrequired)]

/-- The elements of a list fill the slots in their order, by induction on the fields that are left. -/
theorem elements_eq_ok_iff {fields : List (Field α)} {slots : List (Slot α)}
    (hfields : List.Forall₂ Field.Matches fields slots) (hslots : slots ⊆ F.slots)
    (hnodup : (slots.map Slot.name).Nodup) {vs : List Value} {s : List Char}
    (hs : SpellsItems vs s) (r : List Char) (index : Nat) {u : List Char}
    (hu : nextElement (index == 0) u = .ok (some (skipSpace (s ++ ']' :: r)))) (x y : α)
    (t : List Char) :
    shape.elements index x u fields = .ok (y, t) ↔
      (vs.length ≤ slots.length ∧ (∀ slot ∈ slots.drop vs.length, slot.required = false) ∧
        F.Fills ((slots.map Slot.name).zip vs) x y) ∧ t = r := by
  induction hfields generalizing vs s index u x with
  | nil =>
    rw [elements]
    constructor
    · exact fun hy => absurd hy (closeList_of_some hu x y t)
    · rintro ⟨⟨hlength, -⟩, -⟩
      cases hs <;> cases hlength
  | cons hm hrest ih =>
    rename_i field slot fields slots
    obtain ⟨v, vs, rfl⟩ : ∃ v vs', vs = v :: vs' := by
      cases hs with
      | last => exact ⟨_, _, rfl⟩
      | cons => exact ⟨_, _, rfl⟩
    obtain ⟨hslot, hslots⟩ := List.cons_subset.mp hslots
    obtain ⟨hnot, hnodup⟩ := List.nodup_cons.mp hnodup
    obtain ⟨s', b, w, hv, hb, hsplit, hw⟩ := hs.cons_inv r
    have hread := hm.setter v s' hv (skipSpace (s ++ ']' :: r)) (b ++ w)
      (by rw [skipSpace_skipSpace, hsplit])
    have hkeys : slot.name ∉ keys ((slots.map Slot.name).zip vs) := by
      intro hmem
      obtain ⟨m, hm, hname⟩ := List.mem_map.mp hmem
      exact hnot (hname ▸ (List.of_mem_zip hm).1)
    -- Behind the element stands the closing bracket, or the next element.
    have hnext : ∀ x, shape.elements (index + 1) x (b ++ w) fields = .ok (y, t) ↔
        (vs.length ≤ slots.length ∧ (∀ slot ∈ slots.drop vs.length, slot.required = false) ∧
          F.Fills ((slots.map Slot.name).zip vs) x y) ∧ t = r := by
      intro x
      rcases hw with ⟨rfl, rfl⟩ | ⟨s'', hvs, rfl⟩
      · rw [elements_closed hrest hb, List.zip_nil_right, Format.fills_nil]
        simp only [List.length_nil, Nat.zero_le, List.drop_zero, true_and]
      · exact ih hslots hnodup hvs (index + 1) (nextElement_comma hb hvs r) x
    rw [elements, hu]
    simp only [List.map_cons, List.zip_cons_cons, List.length_cons, Nat.add_le_add_iff_right,
      List.drop_succ_cons]
    rw [Format.fills_cons_of_mem hslot hkeys]
    constructor
    · intro hy
      split at hy
      · cases hy
      · rename_i set t' hset
        obtain ⟨⟨b', hb', rfl⟩, rfl⟩ := (hread set t').mp hset
        obtain ⟨⟨hlength, hopen, hfills⟩, ht⟩ := (hnext _).mp hy
        exact ⟨⟨hlength, hopen, b', hb', hfills⟩, ht⟩
    · rintro ⟨⟨hlength, hopen, b', hb', hfills⟩, ht⟩
      rw [(hread (slot.set b') (b ++ w)).mpr ⟨⟨b', hb', rfl⟩, rfl⟩]
      exact (hnext _).mpr ⟨⟨hlength, hopen, hfills⟩, ht⟩

end RecordShape

/-! ## Members -/

theorem nextKey_closed {a : List Char} (ha : Blank a) (first : Bool) (r : List Char) :
    nextKey first (a ++ '\x7d' :: r) = .ok none := by
  rw [nextKey, skipSpace_blank_cons ha (by decide)]
  rfl

theorem nextKey_first {u key : List Char} (hu : skipSpace u = '"' :: key) :
    nextKey true u = .ok (some key) := by
  rw [nextKey, hu]
  rfl

/-- Behind a member the next follows a comma. -/
theorem nextKey_comma {a u key : List Char} (ha : Blank a) (hu : skipSpace u = '"' :: key) :
    nextKey false (a ++ ',' :: u) = .ok (some key) := by
  rw [nextKey, skipSpace_blank_cons ha (by decide)]
  split
  · rename_i heq
    cases heq
  · rename_i heq
    cases heq
  · rename_i heq
    cases heq
    rw [if_neg Bool.false_ne_true, if_pos rfl, hu]
    rfl

namespace RecordShape

variable {shape : RecordShape α} {F : Format α}

theorem members_none {seen : List String} {x : α} {first : Bool} {u : List Char}
    (h : nextKey first u = .ok none) :
    shape.members seen x first u = shape.finish seen x ((skipSpace u).drop 1) := by
  rw [members]
  split
  · rename_i hf
    rw [h] at hf
    cases hf
  · rfl
  · rename_i hn
    rw [h] at hn
    cases hn

theorem members_some {seen : List String} {x : α} {first : Bool} {u w : List Char}
    (h : nextKey first u = .ok (some w)) (y : α) (t : List Char) :
    shape.members seen x first u = .ok (y, t) ↔
      ∃ seen' x' u', shape.member seen x w = .ok (seen', x', u') ∧
        shape.members seen' x' false u' = .ok (y, t) := by
  rw [members]
  split
  · rename_i hf
    rw [h] at hf
    cases hf
  · rename_i hn
    rw [h] at hn
    cases hn
  · rename_i w' hn
    rw [h] at hn
    cases hn
    split
    · rename_i f hf
      constructor
      · intro hy
        cases hy
      · rintro ⟨seen', x', u', hm, -⟩
        rw [hf] at hm
        cases hm
    · rename_i seen' x' u' hm
      constructor
      · exact fun hy => ⟨seen', x', u', hm, hy⟩
      · rintro ⟨_, _, _, hm', hy⟩
        rw [hm] at hm'
        cases hm'
        exact hy

namespace Follows

variable (h : shape.Follows F)
include h

theorem exists_slot {field : Field α} (hfield : field ∈ shape.fields) :
    ∃ slot ∈ F.slots, field.Matches slot :=
  exists_mem_of_forall₂ h.fields hfield

theorem exists_field {slot : Slot α} (hslot : slot ∈ F.slots) :
    ∃ field ∈ shape.fields, field.Matches slot :=
  exists_mem_of_forall₂ (R := flip Field.Matches) (List.Forall₂.flip h.fields) hslot

theorem finish_eq_ok_iff {seen : List String} {x y : α} {s t : List Char} :
    shape.finish seen x s = .ok (y, t) ↔
      ((∀ slot ∈ F.slots, slot.required = true → slot.name ∈ seen) ∧ y = x) ∧ t = s := by
  have hmissing : (shape.fields.find? fun f => f.required && !seen.contains f.name) = none ↔
      ∀ slot ∈ F.slots, slot.required = true → slot.name ∈ seen := by
    rw [List.find?_eq_none]
    constructor
    · intro hnone slot hslot hrequired
      obtain ⟨field, hfield, hm⟩ := h.exists_field hslot
      have := hnone field hfield
      rw [hm.required, hm.name, hrequired] at this
      simpa using this
    · intro hall field hfield
      obtain ⟨slot, hslot, hm⟩ := h.exists_slot hfield
      rw [hm.required, hm.name]
      simpa using hall slot hslot
  rw [finish, ← hmissing]
  constructor
  · intro hy
    split at hy
    · cases hy
    · rename_i hnone
      cases hy
      exact ⟨⟨hnone, rfl⟩, rfl⟩
  · rintro ⟨⟨hnone, rfl⟩, rfl⟩
    rw [hnone]

theorem find?_eq_none {k : String} (hk : k ∉ F.names) :
    (shape.fields.find? fun f => f.name == k) = none := by
  rw [List.find?_eq_none]
  intro field hfield heq
  obtain ⟨slot, hslot, hm⟩ := h.exists_slot hfield
  rw [hm.name, beq_iff_eq] at heq
  exact hk (heq ▸ Format.mem_names hslot)

theorem find?_eq_some {slot : Slot α} (hslot : slot ∈ F.slots) :
    ∃ field, (shape.fields.find? fun f => f.name == slot.name) = some field ∧
      field.Matches slot := by
  obtain ⟨field, hfield, hm⟩ := h.exists_field hslot
  have hsome : (shape.fields.find? fun f => f.name == slot.name).isSome :=
    List.find?_isSome.mpr ⟨field, hfield, beq_iff_eq.mpr hm.name⟩
  obtain ⟨found, hfound⟩ := Option.isSome_iff_exists.mp hsome
  refine ⟨found, hfound, ?_⟩
  obtain ⟨other, hother, hm'⟩ := h.exists_slot (List.mem_of_find?_eq_some hfound)
  have hname : found.name = slot.name := by simpa using List.find?_some hfound
  obtain rfl := Format.eq_of_name_eq hother hslot (hm'.name.symm.trans hname)
  exact hm'

variable {seen : List String} {x : α} {k : String} {v : Value} {key r value s w : List Char}

/-- The value of a member without a slot is passed over. -/
theorem member_of_not_mem (hk : k ∉ F.names) (hkey : string key = .ok (k.toList, r))
    (hcolon : skipColon r = .ok value) (hv : Spells v s) (hvalue : skipSpace value = s ++ w)
    (hw : Delimited w) : shape.member seen x key = .ok (seen, x, w) := by
  simp only [member, hkey, String.ofList_toList, h.find?_eq_none hk, hcolon,
    skipValue_spells hv hvalue hw]

/-- The value of a member with a slot is read, unless its name has occurred. -/
theorem member_of_mem {slot : Slot α} (hslot : slot ∈ F.slots)
    (hkey : string key = .ok (slot.name.toList, r)) (hcolon : skipColon r = .ok value)
    (hv : Spells v s) (hvalue : skipSpace value = s ++ w) (seen' : List String) (x' : α)
    (u : List Char) :
    shape.member seen x key = .ok (seen', x', u) ↔ slot.name ∉ seen ∧
      ∃ b, slot.meaning v b ∧ seen' = slot.name :: seen ∧ x' = slot.set b x ∧ u = w := by
  obtain ⟨field, hfind, hm⟩ := h.find?_eq_some hslot
  have hread := hm.setter v s hv value w hvalue
  simp only [member, hkey, String.ofList_toList, hfind, hcolon, hm.name, List.contains_iff_mem]
  constructor
  · intro hx
    split at hx
    · cases hx
    · rename_i hseen
      split at hx
      · cases hx
      · rename_i set t hset
        obtain ⟨⟨b, hb, rfl⟩, rfl⟩ := (hread set t).mp hset
        cases hx
        exact ⟨hseen, b, hb, rfl, rfl, rfl⟩
  · rintro ⟨hseen, b, hb, rfl, rfl, rfl⟩
    rw [if_neg hseen, (hread (slot.set b) u).mpr ⟨⟨b, hb, rfl⟩, rfl⟩]

/-- The members of an object lead to the record that is read, by induction on what is left of them. -/
theorem members_eq_ok_iff {ms : List (String × Value)} {s : List Char} (hs : SpellsMembers ms s)
    (r : List Char) {seen : List String} {x : α} {first : Bool} {u key : List Char}
    (hkey : skipSpace (s ++ '\x7d' :: r) = '"' :: key) (hu : nextKey first u = .ok (some key))
    (y : α) (t : List Char) :
    shape.members seen x first u = .ok (y, t) ↔ F.Leads seen ms x y ∧ t = r := by
  induction ms generalizing s seen x first u key with
  | nil => cases hs
  | cons m ms ih =>
    obtain ⟨k, v⟩ := m
    obtain ⟨s', w, hm, hsplit, hw⟩ := hs.cons_inv r
    obtain ⟨key', r', value, s'', d, hopen, hname, hcolon, hv, hd, hvalue⟩ :=
      hm.inv w
    rw [hsplit, hopen] at hkey
    cases hkey
    have hfollow : Delimited (d ++ w) := by
      apply delimited_blank hd
      rcases hw with ⟨-, rfl⟩ | ⟨s'', -, rfl⟩
      · exact headIn_cons (by decide) r
      · exact headIn_cons (by decide) _
    -- Behind the member stands the closing brace, or the next member.
    have hrest : ∀ seen x, shape.members seen x false (d ++ w) = .ok (y, t) ↔
        F.Leads seen ms x y ∧ t = r := by
      intro seen x
      rcases hw with ⟨rfl, rfl⟩ | ⟨s'', hms, rfl⟩
      · rw [members_none (nextKey_closed hd false r), skipSpace_blank_cons hd (by decide),
          h.finish_eq_ok_iff, Format.leads_nil_iff]
        rfl
      · obtain ⟨key'', hkey''⟩ := hms.skipSpace_eq ('\x7d' :: r)
        exact ih hms hkey'' (nextKey_comma hd hkey'')
    rw [members_some hu]
    by_cases hk : k ∈ F.names
    · obtain ⟨slot, hslot, rfl⟩ := List.mem_map.mp hk
      rw [Format.leads_cons_of_mem hslot]
      constructor
      · rintro ⟨seen', x', u', hmember, hy⟩
        obtain ⟨hseen, b, hb, rfl, rfl, rfl⟩ :=
          (h.member_of_mem hslot hname hcolon hv hvalue seen' x' u').mp hmember
        obtain ⟨hleads, ht⟩ := (hrest _ _).mp hy
        exact ⟨⟨hseen, b, hb, hleads⟩, ht⟩
      · rintro ⟨⟨hseen, b, hb, hleads⟩, ht⟩
        exact ⟨_, _, _, (h.member_of_mem hslot hname hcolon hv hvalue _ _ _).mpr
          ⟨hseen, b, hb, rfl, rfl, rfl⟩, (hrest _ _).mpr ⟨hleads, ht⟩⟩
    · rw [Format.leads_cons_of_not_mem hk, ← hrest,
        h.member_of_not_mem hk hname hcolon hv hvalue hfollow]
      constructor
      · rintro ⟨seen', x', u', hmember, hy⟩
        cases hmember
        exact hy
      · exact fun hy => ⟨_, _, _, rfl, hy⟩

/-! ## Both forms -/

theorem reader : shape.reader.Follows F.meaning := by
  intro v s hs u r hu y t
  have hobject : ∀ ms, Spells (.object ms) s → ∀ w, s ++ r = '\x7b' :: w →
      (shape.members [] shape.start true w = .ok (y, t) ↔ F.Describes ms y ∧ t = r) := by
    intro ms hs w hw
    rw [h.start, ← Format.leads_start_iff]
    obtain ⟨z, hz | ⟨rfl, hz⟩, happend⟩ := hs.object_inv
    · rw [happend] at hw
      cases hw
      obtain ⟨key, hkey⟩ := hz.skipSpace_eq ('\x7d' :: r)
      exact h.members_eq_ok_iff hz r hkey (nextKey_first hkey) y t
    · rw [happend] at hw
      cases hw
      rw [members_none (nextKey_closed hz true r), skipSpace_blank_cons hz (by decide),
        h.finish_eq_ok_iff, Format.leads_nil_iff]
      rfl
  have hlist : ∀ vs, Spells (.list vs) s → ∀ w, s ++ r = '[' :: w →
      (shape.elements 0 shape.start w shape.fields = .ok (y, t) ↔
        (vs.length ≤ F.slots.length ∧ F.Describes (F.names.zip vs) y) ∧ t = r) := by
    intro vs hs w hw
    rw [h.start, and_congr_right Format.describes_zip_iff]
    obtain ⟨z, hz | ⟨rfl, hz⟩, happend⟩ := hs.list_inv
    · rw [happend] at hw
      cases hw
      exact elements_eq_ok_iff h.fields (List.Subset.refl _) F.nodup hz r 0
        (nextElement_first hz r) F.start y t
    · rw [happend] at hw
      cases hw
      rw [elements_closed h.fields hz, List.zip_nil_right, Format.fills_nil]
      simp only [List.length_nil, Nat.zero_le, List.drop_zero, true_and]
  simp only [RecordShape.reader, hu]
  constructor
  · intro hy
    split at hy
    · rename_i w hw
      obtain ⟨ms, rfl⟩ := Value.exists_object_of_opens (hs.opens hw)
      exact (hobject ms hs w hw).mp hy
    · rename_i w hw
      obtain ⟨vs, rfl⟩ := Value.exists_list_of_opens (hs.opens hw)
      exact (hlist vs hs w hw).mp hy
    · cases hy
  · rintro ⟨hmeaning, ht⟩
    cases v with
    | object ms =>
      obtain ⟨z, -, happend⟩ := hs.object_inv
      rw [happend]
      exact (hobject ms hs _ (happend r)).mpr ⟨hmeaning, ht⟩
    | list vs =>
      obtain ⟨z, -, happend⟩ := hs.list_inv
      rw [happend]
      exact (hlist vs hs _ (happend r)).mpr ⟨hmeaning, ht⟩
    | _ => exact hmeaning.elim

end Follows

end RecordShape

end TapeMachine.Json
