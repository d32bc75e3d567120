import Mathlib.Data.List.Nodup
import TapeMachine.Proofs.Json.Grammar

/-!
# What JSON values stand for

A meaning says which values stand for which things, without a word on texts or readers. The meaning of a
record is given by its format: a record has one part for each slot; a member of an object says what the part
of its name is, and a part without a member has its default. Members of other names say nothing.

`Format.Describes` relates members and records; `Format.Describable` says which members describe any record
at all (`Format.exists_describes_iff`). The order of the members is in neither.
-/

namespace TapeMachine.Json

/-- Which values stand for which things. -/
abbrev Meaning (α : Type) := Value → α → Prop

namespace Meaning

variable {α : Type}

def null : Meaning Unit :=
  fun v _ => v = .null

def text : Meaning String :=
  fun v x => v = .text x

/-- A string of exactly one character. -/
def character : Meaning Char :=
  fun v c => v = .text (String.singleton c)

/-- The value `null`, or another value that stands for something. -/
def optional (meaning : Meaning α) : Meaning (Option α)
  | v, none => v = .null
  | v, some x => v ≠ .null ∧ meaning v x

def list (meaning : Meaning α) : Meaning (List α) :=
  fun v xs => ∃ vs, v = .list vs ∧ List.Forall₂ meaning vs xs

/-- One of several names, as a string or as the name of the only member of an object, whose value is
`null`. -/
def oneOf (known : List (String × α)) : Meaning α :=
  fun v x => ∃ name, (name, x) ∈ known ∧ (v = .text name ∨ v = .object [(name, .null)])

end Meaning

/-! ## Records -/

/-- The names of the members of an object. -/
def keys (ms : List (String × Value)) : List String :=
  ms.map Prod.fst

/-- A part of records of type `α`. -/
structure Slot (α : Type) where
  {β : Type}
  name : String
  /-- The member of a required slot may not be missing. -/
  required : Bool
  meaning : Meaning β
  get : α → β
  set : β → α → α

namespace Slot

def mandatory {α β : Type} (name : String) (meaning : Meaning β) (get : α → β) (set : β → α → α) :
    Slot α :=
  ⟨name, true, meaning, get, set⟩

def defaulted {α β : Type} (name : String) (meaning : Meaning β) (get : α → β) (set : β → α → α) :
    Slot α :=
  ⟨name, false, meaning, get, set⟩

end Slot

/-- The parts of records of type `α`. -/
structure Format (α : Type) where
  slots : List (Slot α)
  /-- The record whose parts all have their defaults. -/
  start : α
  nodup : (slots.map Slot.name).Nodup
  get_set : ∀ slot ∈ slots, ∀ b x, slot.get (slot.set b x) = b
  /-- The parts are independent. -/
  get_set_of_ne : ∀ slot ∈ slots, ∀ other ∈ slots, slot.name ≠ other.name →
    ∀ b x, other.get (slot.set b x) = other.get x
  /-- A record is no more than its parts. -/
  ext : ∀ x y, (∀ slot ∈ slots, slot.get x = slot.get y) → x = y

namespace Format

variable {α : Type} (F : Format α)

/-- The names of the slots. -/
def names : List String :=
  F.slots.map Slot.name

/-- The names of the members that have a slot. -/
def known (ms : List (String × Value)) : List String :=
  (keys ms).filter (· ∈ F.names)

/-- What the members have to be for any record to be described. -/
structure Describable (ms : List (String × Value)) : Prop where
  distinct : (F.known ms).Nodup
  complete : ∀ slot ∈ F.slots, slot.required = true → slot.name ∈ keys ms
  shaped : ∀ slot ∈ F.slots, ∀ v, (slot.name, v) ∈ ms → ∃ b, slot.meaning v b

/-- The members describe the record `x`. -/
structure Describes (ms : List (String × Value)) (x : α) : Prop where
  distinct : (F.known ms).Nodup
  complete : ∀ slot ∈ F.slots, slot.required = true → slot.name ∈ keys ms
  present : ∀ slot ∈ F.slots, ∀ v, (slot.name, v) ∈ ms → slot.meaning v (slot.get x)
  absent : ∀ slot ∈ F.slots, slot.name ∉ keys ms → slot.get x = slot.get F.start

/-- A record is written as an object, or as the list of the values of its first members. -/
def meaning : Meaning α
  | .object ms, x => F.Describes ms x
  | .list vs, x => vs.length ≤ F.slots.length ∧ F.Describes (F.names.zip vs) x
  | _, _ => False

end Format

/-! ## One member after the other -/

namespace Format

variable {α : Type} {F : Format α} {ms : List (String × Value)} {k : String} {v : Value}
  {slot : Slot α} {seen : List String} {x y : α}

theorem mem_keys {ms : List (String × Value)} {k : String} {v : Value} (h : (k, v) ∈ ms) :
    k ∈ keys ms :=
  List.mem_map_of_mem h

theorem mem_names (h : slot ∈ F.slots) : slot.name ∈ F.names :=
  List.mem_map_of_mem h

theorem mem_known_iff : k ∈ F.known ms ↔ k ∈ keys ms ∧ k ∈ F.names := by
  rw [known, List.mem_filter, decide_eq_true_eq]

theorem known_cons_of_not_mem (hk : k ∉ F.names) : F.known ((k, v) :: ms) = F.known ms :=
  List.filter_cons_of_neg (by rwa [decide_eq_true_eq])

theorem known_cons_of_mem (hk : k ∈ F.names) : F.known ((k, v) :: ms) = k :: F.known ms :=
  List.filter_cons_of_pos (decide_eq_true hk)

theorem eq_of_name_eq {other : Slot α} (h : slot ∈ F.slots) (h' : other ∈ F.slots)
    (hname : slot.name = other.name) : slot = other :=
  List.inj_on_of_nodup_map F.nodup h h' hname

variable (F) in
/-- The record `y` has the parts that the members give, and is `x` in the others. -/
def Fills (ms : List (String × Value)) (x y : α) : Prop :=
  ∀ slot ∈ F.slots, (∀ v, (slot.name, v) ∈ ms → slot.meaning v (slot.get y)) ∧
    (slot.name ∉ keys ms → slot.get y = slot.get x)

theorem fills_nil : F.Fills [] x y ↔ y = x := by
  constructor
  · exact fun h => F.ext y x fun slot hslot => (h slot hslot).2 List.not_mem_nil
  · rintro rfl slot -
    exact ⟨fun v hv => (List.not_mem_nil hv).elim, fun _ => rfl⟩

/-- A member without a slot says nothing. -/
theorem fills_cons_of_not_mem (hk : k ∉ F.names) :
    F.Fills ((k, v) :: ms) x y ↔ F.Fills ms x y := by
  refine forall₂_congr fun slot hslot => ?_
  have hne : slot.name ≠ k := by
    rintro rfl
    exact hk (mem_names hslot)
  refine and_congr (forall_congr' fun w => ?_) ?_
  · rw [List.mem_cons, Prod.mk.injEq, or_iff_right (fun h => hne h.1)]
  · rw [keys, List.map_cons, List.mem_cons, not_or, and_iff_right hne]
    rfl

/-- A member with a slot sets that part. -/
theorem fills_cons_of_mem (hslot : slot ∈ F.slots) (hkeys : slot.name ∉ keys ms) :
    F.Fills ((slot.name, v) :: ms) x y ↔ ∃ b, slot.meaning v b ∧ F.Fills ms (slot.set b x) y := by
  constructor
  · intro h
    refine ⟨slot.get y, (h slot hslot).1 v List.mem_cons_self, fun other hother => ⟨?_, ?_⟩⟩
    · exact fun w hw => (h other hother).1 w (List.mem_cons_of_mem _ hw)
    · intro habsent
      by_cases hname : slot.name = other.name
      · obtain rfl := eq_of_name_eq hslot hother hname
        rw [F.get_set _ hslot]
      · rw [F.get_set_of_ne _ hslot _ hother hname]
        refine (h other hother).2 ?_
        rw [keys, List.map_cons, List.mem_cons, not_or]
        exact ⟨Ne.symm hname, habsent⟩
  · rintro ⟨b, hb, h⟩ other hother
    constructor
    · intro w hw
      rw [List.mem_cons, Prod.mk.injEq] at hw
      rcases hw with ⟨hname, rfl⟩ | hw
      · obtain rfl := eq_of_name_eq hother hslot hname
        rw [(h other hother).2 hkeys, F.get_set _ hslot]
        exact hb
      · exact (h other hother).1 w hw
    · intro habsent
      rw [keys, List.map_cons, List.mem_cons, not_or] at habsent
      rw [(h other hother).2 habsent.2, F.get_set_of_ne _ hslot _ hother (Ne.symm habsent.1)]

theorem describes_iff :
    F.Describes ms x ↔ (F.known ms).Nodup ∧
      (∀ slot ∈ F.slots, slot.required = true → slot.name ∈ keys ms) ∧ F.Fills ms F.start x :=
  ⟨fun h => ⟨h.distinct, h.complete, fun slot hslot => ⟨h.present slot hslot, h.absent slot hslot⟩⟩,
    fun ⟨hdistinct, hcomplete, hfills⟩ =>
      ⟨hdistinct, hcomplete, fun slot hslot => (hfills slot hslot).1,
        fun slot hslot => (hfills slot hslot).2⟩⟩

/-- A list describes the record that its elements describe under the names of the first slots, where
the other slots may not be required. -/
theorem describes_zip_iff {vs : List Value} (hlength : vs.length ≤ F.slots.length) :
    F.Describes (F.names.zip vs) x ↔ (∀ slot ∈ F.slots.drop vs.length, slot.required = false) ∧
      F.Fills (F.names.zip vs) F.start x := by
  have hmin : min F.names.length vs.length = vs.length := by
    rw [names, List.length_map]
    exact Nat.min_eq_right hlength
  have hkeys : keys (F.names.zip vs) = F.names.take vs.length := by
    rw [keys, List.zip_eq_zip_take_min, hmin, List.map_fst_zip]
    rw [List.length_take, List.length_take, Nat.min_self]
    exact Nat.min_le_left _ _
  have hnames : F.names = F.names.take vs.length ++ (F.slots.drop vs.length).map Slot.name := by
    rw [List.map_drop]
    exact (List.take_append_drop _ _).symm
  -- No two slots share a name, so a slot without an element shares none with those that have one.
  have hnodup := F.nodup
  change F.names.Nodup at hnodup
  rw [hnames, List.nodup_append] at hnodup
  rw [describes_iff, hkeys]
  constructor
  · rintro ⟨-, hcomplete, hfills⟩
    refine ⟨fun slot hslot => Bool.eq_false_iff.mpr fun hrequired => ?_, hfills⟩
    have hname := hcomplete slot (List.mem_of_mem_drop hslot) hrequired
    exact hnodup.2.2 _ hname _ (List.mem_map_of_mem hslot) rfl
  · rintro ⟨hopen, hfills⟩
    refine ⟨?_, fun slot hslot hrequired => ?_, hfills⟩
    · rw [known, hkeys]
      exact hnodup.1.filter _
    · rw [← List.take_append_drop vs.length F.slots, List.mem_append] at hslot
      rcases hslot with hslot | hslot
      · rw [names, ← List.map_take]
        exact List.mem_map_of_mem hslot
      · rw [hopen slot hslot] at hrequired
        cases hrequired

/-- There is a record with the parts that the members give. -/
theorem exists_fills (hdistinct : (F.known ms).Nodup)
    (hshaped : ∀ slot ∈ F.slots, ∀ v, (slot.name, v) ∈ ms → ∃ b, slot.meaning v b) (x : α) :
    ∃ y, F.Fills ms x y := by
  induction ms generalizing x with
  | nil => exact ⟨x, fills_nil.mpr rfl⟩
  | cons m ms ih =>
    obtain ⟨k, v⟩ := m
    have hrest : ∀ slot ∈ F.slots, ∀ v, (slot.name, v) ∈ ms → ∃ b, slot.meaning v b :=
      fun slot hslot v hv => hshaped slot hslot v (List.mem_cons_of_mem _ hv)
    by_cases hk : k ∈ F.names
    · rw [known_cons_of_mem hk, List.nodup_cons] at hdistinct
      obtain ⟨slot, hslot, rfl⟩ := List.mem_map.mp hk
      have hkeys : slot.name ∉ keys ms := fun h => hdistinct.1 (mem_known_iff.mpr ⟨h, hk⟩)
      obtain ⟨b, hb⟩ := hshaped slot hslot v List.mem_cons_self
      obtain ⟨y, hy⟩ := ih hdistinct.2 hrest (slot.set b x)
      exact ⟨y, (fills_cons_of_mem hslot hkeys).mpr ⟨b, hb, hy⟩⟩
    · rw [known_cons_of_not_mem hk] at hdistinct
      obtain ⟨y, hy⟩ := ih hdistinct hrest x
      exact ⟨y, (fills_cons_of_not_mem hk).mpr hy⟩

theorem exists_describes_iff : (∃ x, F.Describes ms x) ↔ F.Describable ms := by
  constructor
  · rintro ⟨x, hx⟩
    exact ⟨hx.distinct, hx.complete, fun slot hslot v hv => ⟨slot.get x, hx.present slot hslot v hv⟩⟩
  · intro h
    obtain ⟨x, hx⟩ := exists_fills h.distinct h.shaped F.start
    exact ⟨x, describes_iff.mpr ⟨h.distinct, h.complete, hx⟩⟩

end Format

end TapeMachine.Json
