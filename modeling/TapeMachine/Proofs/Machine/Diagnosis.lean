import TapeMachine.Machine.Cycle
import TapeMachine.Proofs.Text.Quoted

/-!
# What a fault tells

The fault of a cycle that finds no action quotes the state, the symbols and the tops, with commas between
them that may also be symbols. Quoted values can be read, so no other configuration has the same fault, nor
the same message (`message_undefinedTransition_injective`): after a consuming cycle the tops are gone, and the
fault is what is left of them.
-/

namespace TapeMachine

theorem Fault.message_undefinedTransition (state read pop : String) :
    (undefinedTransition state read pop).message =
      "No action defined for state " ++ state ++ " and values (" ++ read ++ "), (" ++ pop ++ ")" :=
  rfl

namespace Machine

open Text Json

variable {σ α : Type} [Quoted σ] [Quoted α]

/-! ## The message -/

theorem toList_message_undefinedTransition (key : Key σ α) :
    (undefinedTransition key).message.toList =
      "No action defined for state ".toList ++ ((quoted key.state).toList ++
        (" and values (".toList ++ ((quotedTuple key.read).toList ++
          ("), (".toList ++ ((quotedTuple key.pop).toList ++ ")".toList))))) := by
  rw [undefinedTransition, Fault.message_undefinedTransition]
  simp only [String.toList_append, List.append_assoc]

section Readable

variable [Readable σ] [Readable α]

/-- No two configurations have the same message. -/
theorem message_undefinedTransition_injective :
    Function.Injective fun key : Key σ α => (undefinedTransition key).message := by
  intro key key' h
  have htext := congrArg String.toList h
  simp only [toList_message_undefinedTransition] at htext
  -- after the state there is a space, and after either tuple its bracket
  have hspace (r : List Char) : Ends (" and values (".toList ++ r) := by
    simp only [String.reduceToList, List.cons_append]
    exact headIn_cons (by decide) _
  have hbracket (r : List Char) : Closes ("), (".toList ++ r) := by
    simp only [String.reduceToList, List.cons_append]
    exact headIn_cons (by decide) _
  have hlast : Closes ")".toList := by
    simp only [String.reduceToList]
    exact headIn_cons (by decide) _
  obtain ⟨hstate, htuples⟩ :=
    Readable.append_inj (hspace _) (hspace _) (List.append_cancel_left htext)
  obtain ⟨hread, htuple⟩ :=
    quotedTuple_append_inj (hbracket _) (hbracket _) (List.append_cancel_left htuples)
  obtain ⟨hpop, -⟩ := quotedTuple_append_inj hlast hlast (List.append_cancel_left htuple)
  cases key
  cases key'
  simp only [Key.mk.injEq]
  exact ⟨hstate, hread, hpop⟩

theorem undefinedTransition_injective :
    Function.Injective (undefinedTransition : Key σ α → Fault) := by
  intro key key' h
  exact message_undefinedTransition_injective (congrArg Fault.message h)

end Readable

/-- The fault of a missing action is that of one configuration only, where symbols are characters and states are
texts, and where both are texts or both are integers: it tells the state and the two tuples, whatever their
lengths. Already a tuple in quoted form tells its items, also if there are commas, quotes or backslashes
among them. -/
theorem fault_tells_configuration :
    Function.Injective (undefinedTransition : Key String Char → Fault) ∧
      Function.Injective (undefinedTransition : Key String String → Fault) ∧
      Function.Injective (undefinedTransition : Key Int Int → Fault) ∧
      Function.Injective (quotedTuple : List Char → String) ∧
      Function.Injective (quotedTuple : List String → String) ∧
      Function.Injective (quotedTuple : List Int → String) :=
  ⟨undefinedTransition_injective, undefinedTransition_injective, undefinedTransition_injective,
    quotedTuple_injective, quotedTuple_injective, quotedTuple_injective⟩

end Machine

end TapeMachine
