import Mathlib.Data.List.Basic

/-!
# Checks one after the other

A check that finds faults reports the first of them and has a value if there are none (`checked`). Checks
made one after the other are one check with the faults of all of them in order (`checked_bind`), and so
are the checks that a loop makes (`foldlM_eq_checked`, `mapM_eq_checked`).
-/

namespace TapeMachine

variable {ε β γ : Type}

/-- The value, unless there are faults: then the first of them. -/
def checked (faults : List ε) (value : β) : Except ε β :=
  match faults.head? with
  | none => .ok value
  | some f => .error f

@[simp]
theorem checked_nil (value : β) : checked ([] : List ε) value = .ok value := rfl

@[simp]
theorem checked_cons (f : ε) (faults : List ε) (value : β) :
    checked (f :: faults) value = .error f := rfl

theorem checked_eq_ok_iff {faults : List ε} {value value' : β} :
    checked faults value = .ok value' ↔ faults = [] ∧ value' = value := by
  cases faults <;> simp [eq_comm]

theorem checked_eq_error_iff {faults : List ε} {value : β} {f : ε} :
    checked faults value = .error f ↔ faults.head? = some f := by
  cases faults <;> simp

/-- Of the faults only the first matters. -/
theorem checked_congr {faults faults' : List ε} (h : faults.head? = faults'.head?) (value : β) :
    checked faults value = checked faults' value := by
  rw [checked, checked, h]

/-- The second check matters only if the first has found nothing. -/
theorem checked_bind {faults faults' : List ε} {value : β} {next : β → Except ε γ} {value' : γ}
    (h : faults = [] → next value = checked faults' value') :
    checked faults value >>= next = checked (faults ++ faults') value' := by
  cases faults with
  | nil => exact h rfl
  | cons f faults => rfl

@[simp]
theorem checked_bind_ok {faults : List ε} {value : β} (f : β → γ) :
    (checked faults value >>= fun v => .ok (f v)) = checked faults (f value) := by
  cases faults <;> rfl

/-- A loop that checks each item in a state of which `P` holds. -/
theorem foldlM_eq_checked {P : β → Prop} {body : β → γ → Except ε β} {faults : γ → List ε}
    {next : β → γ → β} (hbody : ∀ b x, P b → body b x = checked (faults x) (next b x))
    (hnext : ∀ b x, P b → P (next b x)) (xs : List γ) {b : β} (h : P b) :
    xs.foldlM body b = checked (xs.flatMap faults) (xs.foldl next b) := by
  induction xs generalizing b with
  | nil => rfl
  | cons x xs ih =>
    rw [List.foldlM_cons, hbody b x h, List.flatMap_cons, List.foldl_cons]
    apply checked_bind
    intro _
    exact ih (hnext b x h)

/-- A loop that reads each item, where those that cannot be read are the faults. -/
theorem mapM_eq_checked {read : γ → Except ε β} {read? : γ → Option β} {fault : γ → ε}
    (hsome : ∀ x b, read? x = some b → read x = .ok b)
    (hnone : ∀ x, read? x = none → read x = .error (fault x)) (xs : List γ) :
    xs.mapM read =
      checked ((xs.filter fun x => (read? x).isNone).map fault) (xs.filterMap read?) := by
  induction xs with
  | nil => rfl
  | cons x xs ih =>
    rw [List.mapM_cons, ih]
    cases hx : read? x with
    | none =>
      rw [List.filter_cons_of_pos (by rw [hx]; rfl), List.map_cons, checked_cons, hnone x hx]
      rfl
    | some b =>
      rw [List.filter_cons_of_neg (by rw [hx]; simp), List.filterMap_cons_some hx, hsome x b hx]
      exact checked_bind_ok (b :: ·)

end TapeMachine
