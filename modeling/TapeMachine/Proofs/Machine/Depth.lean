import Mathlib.Data.List.Forall2
import TapeMachine.Proofs.Machine.Operation

/-!
# The depth of stacks

A cycle takes the top off every stack before it puts at most one symbol on it, in either mode and also if
it fails. So all that a run does to a stack happens at its top, and what lies below was there at
initialization (`Stack.RestsOn`): a stack never gets deeper than it was then, or than one symbol
(`stacks_after_init`). Stacks hold what they are given; they are no memory that grows.
-/

namespace TapeMachine

variable {σ α : Type}

/-- Changing each item turns one relation to the items of a fixed list into another. -/
theorem forall₂_updateEach {β γ δ : Type} {f : β → γ → β} {R S : δ → β → Prop} {ds : List δ}
    {xs : List β} (vs : List γ) (h : List.Forall₂ R ds xs) (hskip : ∀ d x, R d x → S d x)
    (hf : ∀ d x v, R d x → S d (f x v)) : List.Forall₂ S ds (updateEach f xs vs) := by
  induction h generalizing vs with
  | nil => cases vs <;> exact .nil
  | cons hx hxs ih =>
    cases vs with
    | nil => exact .cons (hskip _ _ hx) (hxs.imp hskip)
    | cons v vs => exact .cons (hf _ _ v hx) (ih vs)

namespace Stack

/-- A stack that has lost its top: what is left is of the content, and there is room for a symbol. -/
structure Exposes (s : Stack α) (content : List α) : Prop where
  items : s.items <+: content
  room : s.items.length < max content.length 1

/-- A stack whose items below the top are of the content, with no more items than it or than one. -/
structure RestsOn (s : Stack α) (content : List α) : Prop where
  below : s.items.dropLast <+: content
  depth : s.items.length ≤ max content.length 1

variable {s : Stack α} {content : List α}

theorem restsOn_items (s : Stack α) : s.RestsOn s.items :=
  ⟨s.items.dropLast_prefix, Nat.le_max_left _ _⟩

theorem RestsOn.rest (h : s.RestsOn content) : s.rest.Exposes content := by
  have hdepth := h.depth
  constructor
  · rw [items_rest]
    exact h.below
  · rw [items_rest, List.length_dropLast]
    omega

theorem Exposes.restsOn (h : s.Exposes content) : s.RestsOn content :=
  ⟨(List.dropLast_prefix _).trans h.items, Nat.le_of_lt h.room⟩

theorem Exposes.push [DecidableEq α] (h : s.Exposes content) (value : α) :
    (s.push value).RestsOn content := by
  by_cases hvalue : value = s.marks.noWrite
  · rw [hvalue, push_noWrite]
    exact h.restsOn
  · constructor
    · rw [items_push s hvalue, List.dropLast_concat]
      exact h.items
    · rw [items_push s hvalue, List.length_append, List.length_singleton]
      exact h.room

/-- The items are the first of the content and at most one more, -/
theorem RestsOn.items_eq (h : s.RestsOn content) :
    ∃ j ≤ content.length, ∃ top : List α, top.length ≤ 1 ∧ s.items = content.take j ++ top := by
  refine ⟨s.items.dropLast.length, h.below.length_le, s.items.drop (s.items.length - 1), ?_, ?_⟩
  · rw [List.length_drop]
    omega
  · rw [← List.prefix_iff_eq_take.mp h.below, List.dropLast_eq_take, List.take_append_drop]

/-- so that every item below the top is where it is in the content. -/
theorem RestsOn.getElem?_eq (h : s.RestsOn content) {k : Nat} (hk : k + 1 < s.items.length) :
    s.items[k]? = content[k]? := by
  have hbelow : k < s.items.dropLast.length := by
    rw [List.length_dropLast]
    omega
  rw [List.prefix_iff_getElem?.mp h.below k hbelow, List.getElem_dropLast, List.getElem?_eq_getElem]

end Stack

/-! ## The stacks of a machine -/

namespace Contents

/-- Contents whose stacks have come from those of others by cycles. -/
def RestsOn (c c₀ : Contents α) : Prop :=
  List.Forall₂ (fun s₀ s => s.RestsOn s₀.items) c₀.pushdowns c.pushdowns

variable {c c₀ : Contents α}

theorem restsOn_self (c : Contents α) : c.RestsOn c :=
  List.forall₂_same.mpr fun s _ => s.restsOn_items

theorem RestsOn.popped (h : c.RestsOn c₀) :
    List.Forall₂ (fun s₀ s => s.Exposes s₀.items) c₀.pushdowns c.popAll.pushdowns :=
  List.forall₂_map_right_iff.mpr (h.imp fun _ _ hs => hs.rest)

theorem RestsOn.popAll (h : c.RestsOn c₀) : c.popAll.RestsOn c₀ :=
  h.popped.imp fun _ _ hs => hs.restsOn

theorem RestsOn.apply [DecidableEq α] (h : c.RestsOn c₀) (r : Rule σ α) :
    (c.popAll.apply r).RestsOn c₀ :=
  forall₂_updateEach r.push h.popped (fun _ _ hs => hs.restsOn) fun _ _ v hs => hs.push v

end Contents

namespace Machine

/-- An initialized machine whose stacks have come by cycles from those it goes back to. -/
structure Grounded (m : Machine σ α) (c : Contents α) : Prop where
  stored : m.stored = some c
  rests : m.contents.RestsOn c

variable [DecidableEq σ] [DecidableEq α] [Quoted σ] [Quoted α]

omit [DecidableEq σ] [DecidableEq α] in
theorem Grounded.fail {m : Machine σ α} {c : Contents α} (h : m.Grounded c) : m.fail.Grounded c where
  stored := h.stored
  rests := by
    show m.spoiled.RestsOn c
    unfold spoiled
    cases m.config.mode with
    | consume => exact h.rests.popAll
    | atomic => exact h.rests

/-- Cycles and resets keep a machine on its ground; nothing else changes it any more. -/
theorem Grounded.change {m m' : Machine σ α} {c : Contents α} (h : m.Grounded c)
    (hchange : Change m m') : m'.Grounded c := by
  have hi : m.isInitialized = true := by
    rw [isInitialized, h.stored]
    rfl
  rcases hchange.cases_of_initialized hi with ⟨a, -, -, rfl⟩ | ⟨-, -, rfl⟩ | ⟨c', hstored, rfl⟩
  · exact ⟨h.stored, h.rests.apply a.rule⟩
  · exact h.fail
  · cases h.stored.symm.trans hstored
    exact ⟨h.stored, c.restsOn_self⟩

omit [DecidableEq σ] [DecidableEq α] [Quoted α] in
theorem grounded_of_init {m m' : Machine σ α} (h : m.init = (m', .ok ())) : m'.Grounded m'.contents := by
  obtain ⟨-, -, -, -, rfl⟩ := init_eq_ok_iff.mp h
  exact ⟨rfl, m.contents.restsOn_self⟩

/-- Whatever is done with a machine after its initialization, each of its stacks has the items that it
had then up to some height and at most one on top of these. So it has no more items than it had
then, or than one, and every item below the top is one that it had then. -/
theorem stacks_after_init {m m' : Machine σ α} (h : m.init = (m', .ok ())) (later : List (Operation σ α)) :
    (m'.after later).contents.pushdowns.length = m'.contents.pushdowns.length ∧
      ∀ (i : Nat) (s₀ s : Stack α), m'.contents.pushdowns[i]? = some s₀ →
        (m'.after later).contents.pushdowns[i]? = some s →
        (∃ j ≤ s₀.items.length, ∃ top : List α, top.length ≤ 1 ∧
          s.items = s₀.items.take j ++ top) ∧
        s.items.length ≤ max s₀.items.length 1 ∧
        ∀ k, k + 1 < s.items.length → s.items[k]? = s₀.items[k]? := by
  have hafter : (m'.after later).Grounded m'.contents :=
    after_induction (P := fun n => n.Grounded m'.contents) later
      (fun _ _ hn hchange => hn.change hchange) (grounded_of_init h)
  obtain ⟨hlength, hstacks⟩ := List.forall₂_iff_get.mp hafter.rests
  refine ⟨hlength.symm, ?_⟩
  intro i s₀ s hs₀ hs
  obtain ⟨hi₀, rfl⟩ := List.getElem?_eq_some_iff.mp hs₀
  obtain ⟨hi, rfl⟩ := List.getElem?_eq_some_iff.mp hs
  have hrests := hstacks i hi₀ hi
  exact ⟨hrests.items_eq, hrests.depth, fun k hk => hrests.getElem?_eq hk⟩

/-- A consuming machine that pushes twice on a stack of two items and on an empty one, fails with a third
look-up, is reset and pushes again. -/
theorem stacks_after_init_pushing :
    let rule (state : Int) (top below : Int) : Rule Int Int :=
      ⟨⟨state, [0], [top, below]⟩, [9], [7, 8], [.stay], state + 1⟩
    let m := (new ⟨0, 5, ⟨0, 9⟩, .consume⟩).after
      [.addTape [], .addStack [6, 5], .addStack [], .addAction (rule 0 5 0), .addAction (rule 1 7 8)]
    let later := [.runFor 7, .reset, .step]
    ∃ m', m.init = (m', .ok ()) ∧ (m'.after [.runFor 7]).fault.isSome = true ∧
      m'.contents.pushdowns.map Stack.items = [[6, 5], []] ∧
      (m'.after later).contents.pushdowns.map Stack.items = [[6, 7], [8]] ∧
      ∀ (i : Nat) (s₀ s : Stack Int), m'.contents.pushdowns[i]? = some s₀ →
        (m'.after later).contents.pushdowns[i]? = some s →
        s.items.length ≤ max s₀.items.length 1 := by
  intro rule m later
  have hinit : m.init = (m.after [.init], .ok ()) := rfl
  refine ⟨m.after [.init], hinit, by decide, by decide, by decide, ?_⟩
  intro i s₀ s hs₀ hs
  exact ((stacks_after_init hinit later).2 i s₀ s hs₀ hs).2.1

end Machine

end TapeMachine
