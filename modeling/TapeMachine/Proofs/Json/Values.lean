import TapeMachine.Json.Reader
import TapeMachine.Proofs.Json.Formats
import TapeMachine.Proofs.Json.Passing

/-!
# What readers take values for

A reader follows a meaning if, on every text that spells a value, it gives exactly the things that the value
stands for and leaves exactly what follows the value (`Reader.Follows`). Readers that are built from readers
follow the meanings that are built from theirs.
-/

namespace TapeMachine.Json

/-! ## Texts taken apart -/

/-- The text of a string is its characters between quotes. -/
theorem Spells.text_inv {x : String} {s : List Char} (h : Spells (.text x) s) :
    ∃ w, SpellsChars x.toList w ∧ ∀ r, s ++ r = '"' :: (w ++ '"' :: r) := by
  cases h with
  | text hx =>
    obtain ⟨w, hw, rfl⟩ := hx
    exact ⟨w, hw, enclosed_append _ _ _⟩

/-- The text of a list is its items between brackets. -/
theorem Spells.list_inv {vs : List Value} {s : List Char} (h : Spells (.list vs) s) :
    ∃ w, (SpellsItems vs w ∨ (vs = [] ∧ Blank w)) ∧ ∀ r, s ++ r = '[' :: (w ++ ']' :: r) := by
  cases h with
  | emptyList ha =>
    exact ⟨_, .inr ⟨rfl, ha⟩, enclosed_append _ _ _⟩
  | list hvs => exact ⟨_, .inl hvs, enclosed_append _ _ _⟩

/-- Behind the first item stands the closing bracket or the comma before the next. -/
theorem SpellsItems.cons_inv {v : Value} {vs : List Value} {s : List Char}
    (h : SpellsItems (v :: vs) s) (r : List Char) :
    ∃ s' b w, Spells v s' ∧ Blank b ∧ skipSpace (s ++ ']' :: r) = s' ++ (b ++ w) ∧
      ((vs = [] ∧ w = ']' :: r) ∨ ∃ s'', SpellsItems vs s'' ∧ w = ',' :: (s'' ++ ']' :: r)) := by
  cases h with
  | last ha hv hb =>
    refine ⟨_, _, _, hv, hb, ?_, .inl ⟨rfl, rfl⟩⟩
    simp only [List.append_assoc]
    exact hv.skipSpace_eq ha _
  | cons ha hv hb hvs =>
    refine ⟨_, _, _, hv, hb, ?_, .inr ⟨_, hvs, rfl⟩⟩
    simp only [List.append_assoc, List.cons_append]
    exact hv.skipSpace_eq ha _

/-- The text of an object is its members between braces. -/
theorem Spells.object_inv {ms : List (String × Value)} {s : List Char}
    (h : Spells (.object ms) s) :
    ∃ w, (SpellsMembers ms w ∨ (ms = [] ∧ Blank w)) ∧ ∀ r, s ++ r = '\x7b' :: (w ++ '\x7d' :: r) := by
  cases h with
  | emptyObject ha =>
    exact ⟨_, .inr ⟨rfl, ha⟩, enclosed_append _ _ _⟩
  | object hms => exact ⟨_, .inl hms, enclosed_append _ _ _⟩

/-- Behind the first member stands the closing brace or the comma before the next. -/
theorem SpellsMembers.cons_inv {m : String × Value} {ms : List (String × Value)} {s : List Char}
    (h : SpellsMembers (m :: ms) s) (r : List Char) :
    ∃ s' w, SpellsMember m s' ∧ s ++ '\x7d' :: r = s' ++ w ∧
      ((ms = [] ∧ w = '\x7d' :: r) ∨
        ∃ s'', SpellsMembers ms s'' ∧ w = ',' :: (s'' ++ '\x7d' :: r)) := by
  cases h with
  | last hm => exact ⟨s, _, hm, rfl, .inl ⟨rfl, rfl⟩⟩
  | cons hm hms =>
    exact ⟨_, _, hm, by rw [List.append_assoc]; rfl, .inr ⟨_, hms, rfl⟩⟩

/-- A member as readers take it apart: its key, the colon, its value, and white space. -/
theorem SpellsMember.inv {k : String} {v : Value} {s : List Char}
    (h : SpellsMember (k, v) s) (w : List Char) :
    ∃ key r value s' d, skipSpace (s ++ w) = '"' :: key ∧ string key = .ok (k.toList, r) ∧
      skipColon r = .ok value ∧ Spells v s' ∧ Blank d ∧ skipSpace value = s' ++ (d ++ w) := by
  cases h with
  | mk ha hkey hb hc hv hd =>
    rename_i a b c s' d
    obtain ⟨z, hz, rfl⟩ := hkey
    have hvalue := hv.skipSpace_eq hc (d ++ w)
    refine ⟨_, _, _, s', d, ?_, string_append hz _, skipColon_append hb _, hv, hd, hvalue⟩
    simp only [List.append_assoc, List.cons_append, List.nil_append]
    exact skipSpace_blank_cons ha (by decide) _

/-! ## Readers -/

/-- On a text that spells a value behind white space, the reader gives what the value stands for and
leaves what follows the value. -/
def Reader.Follows {α : Type} (reader : Reader α) (meaning : Meaning α) : Prop :=
  ∀ v s, Spells v s → ∀ u r, skipSpace u = s ++ r → ∀ x t,
    reader.read u = .ok (x, t) ↔ meaning v x ∧ t = r

/-! ## Whole texts -/

/-- A whole text gives what its value stands for. -/
theorem decode_eq_ok_iff {α : Type} {reader : Reader α} {meaning : Meaning α}
    (hreader : reader.Follows meaning) {v : Value} {text : List Char} (htext : Document v text) (x : α) :
    decode reader text = .ok x ↔ meaning v x := by
  obtain ⟨a, s, b, ha, hs, hb, rfl⟩ := htext
  have hread := hreader v s hs _ b (hs.skipSpace_eq ha b)
  have hblank : skipSpace b = [] := by
    have := skipSpace_blank hb []
    rwa [List.append_nil] at this
  constructor
  · intro h
    unfold decode at h
    split at h
    · cases h
    · rename_i y r hy
      obtain ⟨hmeaning, rfl⟩ := (hread y r).mp hy
      rw [hblank] at h
      cases h
      exact hmeaning
  · intro h
    simp only [decode, (hread x b).mpr ⟨h, rfl⟩, hblank]

namespace Reader

variable {α β : Type}

theorem Follows.congr {reader : Reader α} {meaning meaning' : Meaning α} (h : reader.Follows meaning)
    (heq : ∀ v x, meaning v x ↔ meaning' v x) : reader.Follows meaning' :=
  fun v s hs u r hu x t => (h v s hs u r hu x t).trans (and_congr_left' (heq v x))

theorem Follows.map {reader : Reader α} {meaning : Meaning α} (h : reader.Follows meaning) (f : α → β) :
    (reader.map f).Follows fun v y => ∃ x, meaning v x ∧ y = f x := by
  intro v s hs u r hu y t
  have hread := h v s hs u r hu
  constructor
  · intro hy
    simp only [Reader.map] at hy
    split at hy
    · rename_i x t' hx
      obtain ⟨hmeaning, rfl⟩ := (hread x t').mp hx
      cases hy
      exact ⟨⟨x, hmeaning, rfl⟩, rfl⟩
    · cases hy
  · rintro ⟨⟨x, hmeaning, rfl⟩, rfl⟩
    simp only [Reader.map, (hread x t).mpr ⟨hmeaning, rfl⟩]

/-! ## Strings -/

theorem follows_converted (expected : String) (convert : List Char → Option α) :
    (converted expected convert).Follows fun v y => ∃ x, v = .text x ∧ convert x.toList = some y := by
  intro v s hs u r hu y t
  simp only [converted]
  constructor
  · intro h
    split at h
    · rename_i w hw
      rw [hu] at hw
      obtain ⟨x, rfl⟩ := Value.exists_text_of_opens (hs.opens hw)
      obtain ⟨z, hz, happend⟩ := hs.text_inv
      rw [happend] at hw
      cases hw
      rw [string_append hz] at h
      dsimp only at h
      split at h
      · rename_i y' hy
        cases h
        exact ⟨⟨x, rfl, hy⟩, rfl⟩
      · cases h
    · cases h
  · rintro ⟨⟨x, rfl, hy⟩, rfl⟩
    obtain ⟨w, hw, happend⟩ := hs.text_inv
    rw [hu, happend]
    simp only [string_append hw, hy]

theorem follows_text : text.Follows Meaning.text := by
  refine Follows.congr (follows_converted _ _) fun v y => ⟨?_, ?_⟩
  · rintro ⟨x, rfl, hx⟩
    cases hx
    rw [String.ofList_toList]
    rfl
  · rintro rfl
    exact ⟨y, rfl, by rw [String.ofList_toList]⟩

theorem follows_character : character.Follows Meaning.character := by
  refine Follows.congr (follows_converted _ _) fun v c => ⟨?_, ?_⟩
  · rintro ⟨x, rfl, hx⟩
    split at hx
    · rename_i d hd
      cases hx
      rw [Meaning.character, ← String.ofList_toList (s := x), hd]
      rfl
    · cases hx
  · rintro rfl
    exact ⟨String.singleton c, rfl, by rw [String.toList_singleton]⟩

/-! ## The value `null` -/

theorem follows_null (expected : String) : (null expected).Follows Meaning.null := by
  intro v s hs u r hu x t
  simp only [null]
  constructor
  · intro h
    split at h
    · rename_i w hw
      rw [hu] at hw
      obtain rfl := Value.eq_null_of_opens (hs.opens hw)
      cases hs
      cases hw
      cases h
      exact ⟨rfl, rfl⟩
    · cases h
  · rintro ⟨rfl, rfl⟩
    cases hs
    rw [hu]
    rfl

theorem Follows.optional {reader : Reader α} {meaning : Meaning α} (h : reader.Follows meaning) :
    reader.optional.Follows (Meaning.optional meaning) := by
  intro v s hs u r hu x t
  simp only [Reader.optional]
  split
  · rename_i w hw
    rw [hu] at hw
    obtain rfl := Value.eq_null_of_opens (hs.opens hw)
    rw [(follows_null "null").map (fun _ => none) _ _ hs u r hu x t]
    refine and_congr_left' ⟨?_, ?_⟩
    · rintro ⟨-, -, rfl⟩
      rfl
    · intro hx
      cases x with
      | none => exact ⟨(), rfl, rfl⟩
      | some x => exact absurd rfl hx.1
  · rename_i hn
    have hv : v ≠ .null := by
      rintro rfl
      cases hs
      exact hn _ hu
    rw [h.map some _ _ hs u r hu x t]
    refine and_congr_left' ⟨?_, ?_⟩
    · rintro ⟨y, hy, rfl⟩
      exact ⟨hv, hy⟩
    · intro hx
      cases x with
      | none => exact absurd hx hv
      | some x => exact ⟨x, hx.2, rfl⟩

/-! ## Alternatives -/

theorem find?_eq_some_iff {known : List (String × α)} (hknown : (known.map Prod.fst).Nodup)
    (name : String) (x : α) :
    known.find? (fun k => k.1 == name) = some (name, x) ↔ (name, x) ∈ known := by
  constructor
  · exact List.mem_of_find?_eq_some
  · intro hmem
    have hsome : (known.find? fun k => k.1 == name).isSome :=
      List.find?_isSome.mpr ⟨(name, x), hmem, beq_self_eq_true name⟩
    obtain ⟨k, hk⟩ := Option.isSome_iff_exists.mp hsome
    have hname : k.1 = name := by simpa using List.find?_some hk
    rw [hk, List.inj_on_of_nodup_map hknown (List.mem_of_find?_eq_some hk) hmem hname]

theorem alternative_eq_ok_iff {known : List (String × α)} (hknown : (known.map Prod.fst).Nodup)
    {name : String} {s r : List Char} (hs : string s = .ok (name.toList, r)) (x : α) (t : List Char) :
    alternative known s = .ok (x, t) ↔ (name, x) ∈ known ∧ t = r := by
  simp only [alternative, hs, String.ofList_toList]
  rw [← find?_eq_some_iff hknown]
  constructor
  · intro h
    split at h
    · rename_i n y hy
      obtain rfl : n = name := by simpa using List.find?_some hy
      cases h
      exact ⟨hy, rfl⟩
    · cases h
  · rintro ⟨hx, rfl⟩
    rw [hx]

/-- The braces of an alternative hold its name with the value `null`, and no other member. -/
theorem bracedAlternative_eq_ok_iff {known : List (String × α)} (hknown : (known.map Prod.fst).Nodup)
    {ms : List (String × Value)} {s : List Char} (h : SpellsMembers ms s) (r : List Char) (x : α)
    (t : List Char) :
    bracedAlternative known (s ++ '\x7d' :: r) = .ok (x, t) ↔
      (∃ name, (name, x) ∈ known ∧ ms = [(name, .null)]) ∧ t = r := by
  obtain ⟨⟨k, v⟩, ms, rfl⟩ : ∃ m ms', ms = m :: ms' := by
    cases h with
    | last => exact ⟨_, _, rfl⟩
    | cons => exact ⟨_, _, rfl⟩
  obtain ⟨s', w, hm, hsplit, hw⟩ := h.cons_inv r
  obtain ⟨key, r', value, s'', d, hopen, hkey, hcolon, hv, hd, hvalue⟩ := hm.inv w
  have halternative := alternative_eq_ok_iff hknown hkey
  have hnull := follows_null "unit" v s'' hv value (d ++ w) hvalue
  rw [hsplit]
  simp only [bracedAlternative, hopen]
  constructor
  · intro hx
    split at hx
    · cases hx
    · rename_i y t' hy
      obtain ⟨hy, rfl⟩ := (halternative y t').mp hy
      simp only [hcolon] at hx
      split at hx
      · cases hx
      · rename_i y' z hz
        obtain ⟨rfl, rfl⟩ := (hnull y' z).mp hz
        rw [skipSpace_blank hd] at hx
        rcases hw with ⟨rfl, rfl⟩ | ⟨s'', -, rfl⟩
        · rw [skipSpace_cons (by decide)] at hx
          cases hx
          exact ⟨⟨k, hy, rfl⟩, rfl⟩
        · rw [skipSpace_cons (by decide)] at hx
          cases hx
  · rintro ⟨⟨name, hname, heq⟩, rfl⟩
    cases heq
    obtain ⟨-, rfl⟩ | ⟨s'', hms, -⟩ := hw
    · rw [(halternative x r').mpr ⟨hname, rfl⟩]
      simp only [hcolon, (hnull () _).mpr ⟨rfl, rfl⟩]
      rw [skipSpace_blank hd, skipSpace_cons (by decide)]
      rfl
    · cases hms

theorem bracedAlternative_blank (known : List (String × α)) {a : List Char} (ha : Blank a)
    (r : List Char) :
    bracedAlternative known (a ++ '\x7d' :: r) = .error ⟨.valueExpected, '\x7d' :: r, 1⟩ := by
  rw [bracedAlternative, skipSpace_blank_cons ha (by decide)]
  rfl

theorem follows_oneOf {known : List (String × α)} (hknown : (known.map Prod.fst).Nodup) :
    (oneOf known).Follows (Meaning.oneOf known) := by
  intro v s hs u r hu x t
  simp only [oneOf]
  constructor
  · intro h
    split at h
    · cases h
    · rename_i w hw
      rw [hu] at hw
      obtain ⟨name, rfl⟩ := Value.exists_text_of_opens (hs.opens hw)
      obtain ⟨z, hz, happend⟩ := hs.text_inv
      rw [happend] at hw
      cases hw
      obtain ⟨hx, rfl⟩ := (alternative_eq_ok_iff hknown (string_append hz r) x t).mp h
      exact ⟨⟨name, hx, .inl rfl⟩, rfl⟩
    · rename_i w hw
      rw [hu] at hw
      obtain ⟨ms, rfl⟩ := Value.exists_object_of_opens (hs.opens hw)
      obtain ⟨z, hz | ⟨-, hz⟩, happend⟩ := hs.object_inv
      · rw [happend] at hw
        cases hw
        obtain ⟨⟨name, hx, rfl⟩, rfl⟩ := (bracedAlternative_eq_ok_iff hknown hz r x t).mp h
        exact ⟨⟨name, hx, .inr rfl⟩, rfl⟩
      · rw [happend] at hw
        cases hw
        rw [bracedAlternative_blank known hz] at h
        cases h
    · cases h
  · rintro ⟨⟨name, hx, rfl | rfl⟩, rfl⟩
    · obtain ⟨z, hz, happend⟩ := hs.text_inv
      rw [hu, happend]
      exact (alternative_eq_ok_iff hknown (string_append hz t) x t).mpr ⟨hx, rfl⟩
    · obtain ⟨z, hz | ⟨hnil, -⟩, happend⟩ := hs.object_inv
      · rw [hu, happend]
        exact (bracedAlternative_eq_ok_iff hknown hz t x t).mpr ⟨⟨name, hx, rfl⟩, rfl⟩
      · cases hnil

end Reader

/-! ## Lists -/

theorem nextElement_closed {a : List Char} (ha : Blank a) (first : Bool) (r : List Char) :
    nextElement first (a ++ ']' :: r) = .ok none := by
  rw [nextElement, skipSpace_blank_cons ha (by decide)]
  rfl

/-- Behind the opening bracket the first item follows at once. -/
theorem nextElement_first {vs : List Value} {s : List Char} (h : SpellsItems vs s) (r : List Char) :
    nextElement true (s ++ ']' :: r) = .ok (some (skipSpace (s ++ ']' :: r))) := by
  obtain ⟨c, t, hs, hclose⟩ := h.skipSpace_eq (']' :: r)
  rw [nextElement, hs]
  split
  · rename_i heq
    cases heq
  · rename_i heq
    cases heq
    exact absurd rfl hclose
  · rename_i heq
    cases heq
    rfl

/-- Behind an item the next follows a comma. -/
theorem nextElement_comma {vs : List Value} {a s : List Char} (ha : Blank a) (h : SpellsItems vs s)
    (r : List Char) :
    nextElement false (a ++ ',' :: (s ++ ']' :: r)) = .ok (some (skipSpace (s ++ ']' :: r))) := by
  obtain ⟨c, t, hs, hclose⟩ := h.skipSpace_eq (']' :: r)
  rw [nextElement, skipSpace_blank_cons ha (by decide)]
  split
  · rename_i heq
    cases heq
  · rename_i heq
    cases heq
  · rename_i heq
    cases heq
    rw [if_neg Bool.false_ne_true, if_pos rfl, hs]
    split
    · rename_i heq
      cases heq
    · rename_i heq
      cases heq
      exact absurd rfl hclose
    · rfl

namespace Reader

variable {α : Type}

theorem elementsFrom_none {element : Reader α} {read : List α} {first : Bool} {u : List Char}
    (h : nextElement first u = .ok none) :
    elementsFrom element read first u = .ok (read.reverse, (skipSpace u).drop 1) := by
  rw [elementsFrom]
  split
  · rename_i hf
    rw [h] at hf
    cases hf
  · rfl
  · rename_i hn
    rw [h] at hn
    cases hn

theorem elementsFrom_some {element : Reader α} {read : List α} {first : Bool} {u w : List Char}
    (h : nextElement first u = .ok (some w)) (xs : List α) (t : List Char) :
    elementsFrom element read first u = .ok (xs, t) ↔
      ∃ x u', element.read w = .ok (x, u') ∧
        elementsFrom element (x :: read) false u' = .ok (xs, t) := by
  rw [elementsFrom]
  split
  · rename_i hf
    rw [h] at hf
    cases hf
  · rename_i hn
    rw [h] at hn
    cases hn
  · rename_i w' hn
    rw [h] at hn
    cases hn
    split
    · rename_i f hf
      constructor
      · intro hxs
        cases hxs
      · rintro ⟨x, u', hx, -⟩
        rw [hf] at hx
        cases hx
    · rename_i x u' hx
      constructor
      · exact fun hxs => ⟨x, u', hx, hxs⟩
      · rintro ⟨x', u'', hx', hxs⟩
        rw [hx] at hx'
        cases hx'
        exact hxs

/-- The items of a list are read one after the other, by induction on what is left of them. -/
theorem elementsFrom_items {element : Reader α} {meaning : Meaning α} (h : element.Follows meaning)
    {vs : List Value} {s : List Char} (hs : SpellsItems vs s) (r : List Char) {read : List α}
    {first : Bool} {u : List Char}
    (hu : nextElement first u = .ok (some (skipSpace (s ++ ']' :: r)))) (xs : List α)
    (t : List Char) :
    elementsFrom element read first u = .ok (xs, t) ↔
      (∃ ys, List.Forall₂ meaning vs ys ∧ xs = read.reverse ++ ys) ∧ t = r := by
  induction vs generalizing s read first u with
  | nil => cases hs
  | cons v vs ih =>
    obtain ⟨s', b, w, hv, hb, hsplit, hw⟩ := hs.cons_inv r
    have hread := h v s' hv (skipSpace (s ++ ']' :: r)) (b ++ w)
      (by rw [skipSpace_skipSpace, hsplit])
    have hrest : ∀ x, elementsFrom element (x :: read) false (b ++ w) = .ok (xs, t) ↔
        (∃ ys, List.Forall₂ meaning vs ys ∧ xs = (x :: read).reverse ++ ys) ∧ t = r := by
      intro x
      rcases hw with ⟨rfl, rfl⟩ | ⟨s'', hvs, rfl⟩
      · rw [elementsFrom_none (nextElement_closed hb false r), skipSpace_blank_cons hb (by decide)]
        constructor
        · intro hxs
          cases hxs
          exact ⟨⟨[], .nil, (List.append_nil _).symm⟩, rfl⟩
        · rintro ⟨⟨ys, hys, rfl⟩, rfl⟩
          cases hys
          rw [List.append_nil]
          rfl
      · exact ih hvs (nextElement_comma hb hvs r)
    rw [elementsFrom_some hu]
    constructor
    · rintro ⟨x, u', hx, hxs⟩
      obtain ⟨hmeaning, rfl⟩ := (hread x u').mp hx
      obtain ⟨⟨ys, hys, rfl⟩, ht⟩ := (hrest x).mp hxs
      exact ⟨⟨x :: ys, .cons hmeaning hys, by rw [List.reverse_cons, List.append_assoc]; rfl⟩, ht⟩
    · rintro ⟨⟨ys, hys, rfl⟩, ht⟩
      cases hys with
      | cons hmeaning hys =>
        rename_i x ys
        refine ⟨x, b ++ w, (hread x _).mpr ⟨hmeaning, rfl⟩, (hrest x).mpr ⟨⟨ys, hys, ?_⟩, ht⟩⟩
        rw [List.reverse_cons, List.append_assoc]
        rfl

theorem Follows.list {element : Reader α} {meaning : Meaning α} (h : element.Follows meaning) :
    element.list.Follows (Meaning.list meaning) := by
  intro v s hs u r hu xs t
  simp only [Reader.list]
  constructor
  · intro hxs
    split at hxs
    · rename_i w hw
      rw [hu] at hw
      obtain ⟨vs, rfl⟩ := Value.exists_list_of_opens (hs.opens hw)
      obtain ⟨z, hz | ⟨rfl, hz⟩, happend⟩ := hs.list_inv
      · rw [happend] at hw
        cases hw
        obtain ⟨⟨ys, hys, rfl⟩, ht⟩ :=
          (elementsFrom_items h hz r (nextElement_first hz r) xs t).mp hxs
        exact ⟨⟨vs, rfl, hys⟩, ht⟩
      · rw [happend] at hw
        cases hw
        rw [elementsFrom_none (nextElement_closed hz true r),
          skipSpace_blank_cons hz (by decide)] at hxs
        cases hxs
        exact ⟨⟨[], rfl, .nil⟩, rfl⟩
    · cases hxs
  · rintro ⟨⟨vs, rfl, hvs⟩, rfl⟩
    obtain ⟨z, hz | ⟨rfl, hz⟩, happend⟩ := hs.list_inv
    · rw [hu, happend]
      exact (elementsFrom_items h hz t (nextElement_first hz t) xs t).mpr ⟨⟨xs, hvs, rfl⟩, rfl⟩
    · rw [hu, happend]
      cases hvs
      show elementsFrom element [] true (z ++ ']' :: t) = .ok ([], t)
      rw [elementsFrom_none (nextElement_closed hz true t), skipSpace_blank_cons hz (by decide)]
      rfl

end Reader

end TapeMachine.Json
