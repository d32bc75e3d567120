import TapeMachine.Json.Write
import TapeMachine.Proofs.Json.Values

/-!
# Texts that are written

A text represents a thing if it spells a value that stands for it. What the writers of strings, lists and
objects make of texts that represent the parts represents the whole, where a record may leave out the
members of parts that have their defaults. A number in decimal is read back as itself as long as it has a
place among the numbers of 64 bits.
-/

namespace TapeMachine.Json

/-! ## Strings -/

theorem hexDigit_digitChar {n : Nat} (h : n < 16) : HexDigit n (Nat.digitChar n) :=
  ⟨h, .inl rfl⟩

/-- A control character is written with the two digits of its number. -/
theorem hexUnit_control {n : Nat} (h : n < 0x20) :
    HexUnit n ['0', '0', Nat.digitChar (n / 16), Nat.digitChar (n % 16)] := by
  have hfirst : n / 0x1000 = 0 := Nat.div_eq_of_lt (by omega)
  have hsecond : n / 0x100 % 0x10 = 0 := by omega
  have hthird : n / 0x10 % 0x10 = n / 16 := Nat.mod_eq_of_lt (by omega)
  refine ⟨'0', '0', Nat.digitChar (n / 16), Nat.digitChar (n % 16), ?_, ?_, ?_, ?_, rfl⟩
  · rw [hfirst]
    exact hexDigit_digitChar (by decide)
  · rw [hsecond]
    exact hexDigit_digitChar (by decide)
  · rw [hthird]
    exact hexDigit_digitChar (by omega)
  · exact hexDigit_digitChar (Nat.mod_lt _ (by decide))

theorem spellsChar_writeChar (c : Char) : SpellsChar c (writeChar c) := by
  unfold writeChar
  split
  · exact .letter (by decide)
  · exact .letter (by decide)
  · exact .letter (by decide)
  · exact .letter (by decide)
  · exact .letter (by decide)
  · exact .letter (by decide)
  · exact .letter (by decide)
  · rename_i hquote hslash _ _ _ _ _
    split
    · rename_i hcontrol
      exact .unit (hexUnit_control hcontrol)
    · rename_i hcontrol
      exact .itself hquote hslash (Nat.not_lt.mp hcontrol)

theorem spellsChars_writeChar (cs : List Char) : SpellsChars cs (cs.flatMap writeChar) := by
  induction cs with
  | nil => exact .nil
  | cons c cs ih =>
    rw [List.flatMap_cons]
    exact .cons (spellsChar_writeChar c) ih

theorem spellsString_writeString (x : String) : SpellsString x (writeString x) :=
  ⟨_, spellsChars_writeChar x.toList, rfl⟩

theorem spells_writeString (x : String) : Spells (.text x) (writeString x) :=
  .text (spellsString_writeString x)

/-! ## Lists and objects -/

theorem separated_singleton (a : List Char) : separated [a] = a :=
  List.intercalate_singleton

theorem separated_cons_cons (a b : List Char) (items : List (List Char)) :
    separated (a :: b :: items) = a ++ ',' :: separated (b :: items) := by
  rw [separated, List.intercalate_cons_cons, List.append_assoc]
  rfl

theorem spellsItems_separated {v : Value} {vs : List Value} {item : List Char}
    {items : List (List Char)} (h : List.Forall₂ Spells (v :: vs) (item :: items)) :
    SpellsItems (v :: vs) (separated (item :: items)) := by
  induction vs generalizing v item items with
  | nil =>
    obtain ⟨hv, ⟨⟩⟩ := List.forall₂_cons.mp h
    have hlast := SpellsItems.last blank_nil hv blank_nil
    rwa [List.nil_append, List.append_nil, ← separated_singleton item] at hlast
  | cons w vs ih =>
    obtain ⟨hv, hrest⟩ := List.forall₂_cons.mp h
    cases hrest with
    | cons hw hvs =>
      rw [separated_cons_cons]
      exact .cons blank_nil hv blank_nil (ih (.cons hw hvs))

theorem spells_writeList {vs : List Value} {items : List (List Char)}
    (h : List.Forall₂ Spells vs items) : Spells (.list vs) (writeList items) := by
  cases h with
  | nil => exact .emptyList blank_nil
  | cons hv hvs => exact .list (spellsItems_separated (.cons hv hvs))

/-- A written member belongs to a member of an object. -/
def Written (m : String × Value) (w : String × List Char) : Prop :=
  m.1 = w.1 ∧ Spells m.2 w.2

theorem Written.spellsMember {m : String × Value} {w : String × List Char} (h : Written m w) :
    SpellsMember m (writeString w.1 ++ ':' :: w.2) := by
  obtain ⟨k, v⟩ := m
  obtain ⟨name, item⟩ := w
  obtain ⟨hname, hv⟩ := h
  obtain rfl : k = name := hname
  have hkey := spellsString_writeString k
  have hmember := SpellsMember.mk blank_nil hkey blank_nil blank_nil hv blank_nil
  rwa [List.nil_append, List.nil_append, List.nil_append, List.append_nil] at hmember

theorem spellsMembers_separated {m : String × Value} {ms : List (String × Value)}
    {w : String × List Char} {ws : List (String × List Char)}
    (h : List.Forall₂ Written (m :: ms) (w :: ws)) :
    SpellsMembers (m :: ms) (separated ((w :: ws).map fun w => writeString w.1 ++ ':' :: w.2)) := by
  induction ms generalizing m w ws with
  | nil =>
    obtain ⟨hm, ⟨⟩⟩ := List.forall₂_cons.mp h
    rw [List.map_cons, List.map_nil, separated_singleton]
    exact .last hm.spellsMember
  | cons m' ms ih =>
    obtain ⟨hm, hrest⟩ := List.forall₂_cons.mp h
    cases hrest with
    | cons hm' hms =>
      have hrest := ih (.cons hm' hms)
      rw [List.map_cons, List.map_cons, separated_cons_cons]
      exact .cons hm.spellsMember hrest

theorem spells_writeObject {ms : List (String × Value)} {ws : List (String × List Char)}
    (h : List.Forall₂ Written ms ws) : Spells (.object ms) (writeObject ws) := by
  cases h with
  | nil => exact .emptyObject blank_nil
  | cons hm hms => exact .object (spellsMembers_separated (.cons hm hms))

/-! ## Representations -/

/-- The text spells a value that stands for `x`. -/
def Represents {α : Type} (meaning : Meaning α) (x : α) (text : List Char) : Prop :=
  ∃ v, Spells v text ∧ meaning v x

variable {α : Type}

/-- What represents a thing is read as that thing. -/
theorem Represents.decode_eq {meaning : Meaning α} {x : α} {text : List Char}
    (h : Represents meaning x text) {reader : Reader α} (hreader : reader.Follows meaning) :
    decode reader text = .ok x := by
  obtain ⟨v, hv, hx⟩ := h
  refine (decode_eq_ok_iff hreader ⟨[], text, [], blank_nil, hv, blank_nil, ?_⟩ x).mpr hx
  rw [List.nil_append, List.append_nil]

theorem represents_text (x : String) : Represents .text x (writeString x) :=
  ⟨_, spells_writeString x, rfl⟩

theorem represents_character (c : Char) : Represents .character c (writeString (String.singleton c)) :=
  ⟨_, spells_writeString _, rfl⟩

theorem represents_oneOf {known : List (String × α)} {name : String} {x : α}
    (h : (name, x) ∈ known) : Represents (.oneOf known) x (writeString name) :=
  ⟨_, spells_writeString name, name, h, .inl rfl⟩

theorem represents_some {meaning : Meaning α} (hnull : ∀ x, ¬meaning .null x) {x : α}
    {text : List Char} (h : Represents meaning x text) :
    Represents meaning.optional (some x) text := by
  obtain ⟨v, hv, hx⟩ := h
  refine ⟨v, hv, ?_, hx⟩
  rintro rfl
  exact hnull x hx

theorem represents_list {meaning : Meaning α} {write : α → List Char}
    (h : ∀ x, Represents meaning x (write x)) (xs : List α) :
    Represents meaning.list xs (writeList (xs.map write)) := by
  choose value hspells hmeaning using h
  refine ⟨.list (xs.map value), spells_writeList ?_, xs.map value, rfl, ?_⟩
  · rw [List.forall₂_map_left_iff, List.forall₂_map_right_iff, List.forall₂_same]
    exact fun x _ => hspells x
  · rw [List.forall₂_map_left_iff, List.forall₂_same]
    exact fun x _ => hmeaning x

/-- The members of the record `x` as they are written: in the order of the slots, each with a text that
represents its part or left out for having its default. -/
inductive Members (start x : α) : List (Slot α) → List (String × List Char) → Prop
  | nil : Members start x [] []
  | given {slot : Slot α} {slots : List (Slot α)} {text : List Char} {ws : List (String × List Char)} :
      Represents slot.meaning (slot.get x) text → Members start x slots ws →
      Members start x (slot :: slots) ((slot.name, text) :: ws)
  | omitted {slot : Slot α} {slots : List (Slot α)} {ws : List (String × List Char)} :
      slot.required = false → slot.get x = slot.get start → Members start x slots ws →
      Members start x (slot :: slots) ws

/-- The values of written members, and what they say about each slot. -/
theorem Members.exists_values {start x : α} {slots : List (Slot α)} {ws : List (String × List Char)}
    (h : Members start x slots ws) (hnodup : (slots.map Slot.name).Nodup) :
    ∃ ms, List.Forall₂ Written ms ws ∧ (keys ms).Sublist (slots.map Slot.name) ∧
      ∀ slot ∈ slots, (∀ v, (slot.name, v) ∈ ms → slot.meaning v (slot.get x)) ∧
        (slot.name ∉ keys ms → slot.required = false ∧ slot.get x = slot.get start) := by
  induction h with
  | nil => exact ⟨[], .nil, .slnil, fun _ hslot => (List.not_mem_nil hslot).elim⟩
  | given htext _ ih =>
    rename_i slot slots text ws _
    obtain ⟨hname, hnodup⟩ := List.nodup_cons.mp hnodup
    obtain ⟨v, hv, hx⟩ := htext
    obtain ⟨ms, hwritten, hkeys, hslots⟩ := ih hnodup
    -- The name does not occur further on: the new member is the only one for its slot.
    have hother : slot.name ∉ keys ms := fun h => hname (hkeys.subset h)
    refine ⟨(slot.name, v) :: ms, .cons ⟨rfl, hv⟩ hwritten, hkeys.cons_cons _, ?_⟩
    rw [List.forall_mem_cons]
    refine ⟨⟨fun w hw => ?_, fun habsent => absurd List.mem_cons_self habsent⟩, ?_⟩
    · rcases List.mem_cons.mp hw with heq | hw
      · cases heq
        exact hx
      · exact absurd (Format.mem_keys hw) hother
    · intro other hmem
      have hne : other.name ≠ slot.name := fun h => hname (h ▸ List.mem_map_of_mem hmem)
      obtain ⟨hpresent, habsent⟩ := hslots other hmem
      constructor
      · intro w hw
        rcases List.mem_cons.mp hw with heq | hw
        · exact absurd (congrArg Prod.fst heq) hne
        · exact hpresent w hw
      · exact fun h => habsent fun hmem => h (List.mem_cons_of_mem _ hmem)
  | omitted hrequired hstart _ ih =>
    obtain ⟨hname, hnodup⟩ := List.nodup_cons.mp hnodup
    obtain ⟨ms, hwritten, hkeys, hslots⟩ := ih hnodup
    refine ⟨ms, hwritten, hkeys.cons _, ?_⟩
    rw [List.forall_mem_cons]
    refine ⟨⟨fun v hv => ?_, fun _ => ⟨hrequired, hstart⟩⟩, hslots⟩
    exact absurd (hkeys.subset (Format.mem_keys hv)) hname

theorem represents_record {F : Format α} {x : α} {ws : List (String × List Char)}
    (h : Members F.start x F.slots ws) : Represents F.meaning x (writeObject ws) := by
  obtain ⟨ms, hwritten, hkeys, hslots⟩ := h.exists_values F.nodup
  refine ⟨.object ms, spells_writeObject hwritten, ?_, fun slot hslot hrequired => ?_,
    fun slot hslot => (hslots slot hslot).1, fun slot hslot habsent => ((hslots slot hslot).2 habsent).2⟩
  · exact (F.nodup.sublist hkeys).filter _
  · by_contra habsent
    rw [((hslots slot hslot).2 habsent).1] at hrequired
    cases hrequired

/-! ## Numbers -/

theorem digits_toDigits (n : Nat) : Digits (Nat.toDigits 10 n) := by
  refine ⟨Nat.toDigits_ne_nil, fun c hc => ?_⟩
  have hdigit := Nat.isDigit_of_mem_toDigits (by decide) (by decide) hc
  rw [Char.isDigit, Bool.and_eq_true, decide_eq_true_eq, decide_eq_true_eq] at hdigit
  exact hdigit

/-- Only zero is written with a zero in front. -/
theorem head?_toDigits {n : Nat} (hn : n ≠ 0) : (Nat.toDigits 10 n).head? ≠ some '0' := by
  induction n using Nat.strong_induction_on with
  | _ n ih =>
    by_cases hsmall : n < 10
    · rw [Nat.toDigits_of_lt_base hsmall]
      interval_cases n
      · exact absurd rfl hn
      all_goals decide
    · have hdiv : n / 10 ≠ 0 := by omega
      rw [Nat.toDigits_of_base_le (by decide) (Nat.not_lt.mp hsmall), List.head?_append_of_ne_nil]
      · exact ih (n / 10) (by omega) hdiv
      · exact Nat.toDigits_ne_nil

theorem le_ofDigitChars (ds : List Char) (value : Nat) : value ≤ Nat.ofDigitChars 10 ds value := by
  rw [Nat.ofDigitChars_eq_ofDigitChars_zero]
  calc value
    _ ≤ 10 ^ ds.length * value := Nat.le_mul_of_pos_left _ (Nat.pow_pos (by decide))
    _ ≤ 10 ^ ds.length * value + Nat.ofDigitChars 10 ds 0 := Nat.le_add_right _ _

/-- Digits are taken up as long as they fit. -/
theorem absorb_eq {limit : Nat} (ds : List Char) {value : Nat}
    (h : Nat.ofDigitChars 10 ds value ≤ limit) :
    absorb limit value ds = (Nat.ofDigitChars 10 ds value, []) := by
  induction ds generalizing value with
  | nil => rfl
  | cons c ds ih =>
    rw [Nat.ofDigitChars_cons, Nat.mul_comm] at h ⊢
    have hle : value * 10 + digitValue c ≤ limit := Nat.le_trans (le_ofDigitChars ds _) h
    rw [absorb, if_pos hle]
    exact ih h

/-- A number in decimal is read as itself. -/
theorem number_toDigits {n : Nat} (hn : n ≤ significandLimit) {r : List Char} (hr : Delimited r) :
    number false (Nat.toDigits 10 n ++ r) = .ok (.integer n, r) := by
  have hends : ∀ c, c ∉ delimiters → ∀ t, r ≠ c :: t := fun c hc => HeadIn.ne_cons hr hc
  have hpoint : ∀ m, numberFromPoint false m 0 r = .ok (.integer m, r) := by
    intro m
    rw [numberFromPoint]
    · simp
    · exact hends '.' (by decide)
    · exact hends 'e' (by decide)
    · exact hends 'E' (by decide)
  obtain ⟨hdigits, hrest⟩ := digits_append (digits_toDigits n) hr (by decide)
  obtain ⟨d, ds, htext, hd⟩ := (digits_toDigits n).exists_cons
  -- A zero in front ends the integral part, so that zero itself is read apart from the other numbers.
  by_cases hzero : n = 0
  · subst hzero
    have hnone := (digits_eq_nil hr (by decide)).1
    show number false ('0' :: r) = _
    rw [number, if_pos rfl, if_pos hnone]
    exact hpoint 0
  · have hd0 : d ≠ '0' := by
      rintro rfl
      exact head?_toDigits hzero (by rw [htext]; rfl)
    have habsorb : absorb significandLimit 0 (Nat.toDigits 10 n) = (n, []) := by
      have hvalue : Nat.ofDigitChars 10 (Nat.toDigits 10 n) 0 = n := Nat.ofDigitChars_ten_toDigits
      rw [absorb_eq _ (by rwa [hvalue]), hvalue]
    rw [htext] at hdigits hrest habsorb ⊢
    rw [List.cons_append] at hdigits hrest ⊢
    rw [number, if_neg hd0, if_pos hd, hdigits, hrest, habsorb]
    exact hpoint n

theorem natural_toDigits {n : Nat} (hn : n ≤ significandLimit) {u r : List Char}
    (hu : skipSpace u = Nat.toDigits 10 n ++ r) (hr : Delimited r) :
    Reader.natural.read u = .ok (n, r) := by
  have hnumber := number_toDigits hn hr
  obtain ⟨d, ds, htext, hd⟩ := (digits_toDigits n).exists_cons
  rw [htext, List.cons_append] at hu hnumber
  simp only [Reader.natural, hu]
  split
  · rename_i heq
    cases heq
    cases hd
  · rename_i heq
    cases heq
    rw [if_pos hd, hnumber]
  · rename_i heq
    cases heq

end TapeMachine.Json
