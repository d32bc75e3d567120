import TapeMachine.Proofs.Machine.Operation

/-!
# Transcripts

A history with everything that is to be seen of it: what each call answers, and the machine that it leaves
(`Machine.transcript`). What every change keeps holds at every entry (`forall_mem_transcript`), and the
transcript of a history goes on with that of what follows (`transcript_append`).
-/

namespace TapeMachine.Machine

variable {σ α : Type} [DecidableEq σ] [DecidableEq α] [Quoted σ] [Quoted α]

/-- The machine after each call of a history, with the answer to the call. -/
def transcript (m : Machine σ α) : List (Operation σ α) → List (Machine σ α × Except Fault Answer)
  | [] => []
  | op :: ops => m.perform op :: (m.perform op).1.transcript ops

theorem transcript_append (m : Machine σ α) (ops more : List (Operation σ α)) :
    m.transcript (ops ++ more) = m.transcript ops ++ (m.after ops).transcript more := by
  induction ops generalizing m with
  | nil => rfl
  | cons op ops ih => exact congrArg (m.perform op :: ·) (ih _)

/-- What every change keeps holds of every machine of a transcript. -/
theorem forall_mem_transcript {P : Machine σ α → Prop} {m : Machine σ α}
    (hchange : ∀ m m', P m → Change m m' → P m') (h : P m) (ops : List (Operation σ α)) :
    ∀ r ∈ m.transcript ops, P r.1 := by
  induction ops generalizing m with
  | nil =>
    intro r hr
    cases hr
  | cons op ops ih =>
    have hnext : P (m.perform op).1 := changes_induction hchange h (changes_perform m op)
    intro r hr
    rcases List.mem_cons.mp hr with rfl | hr
    · exact hnext
    · exact ih hnext r hr

end TapeMachine.Machine
