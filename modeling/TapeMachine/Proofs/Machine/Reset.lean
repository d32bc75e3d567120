import TapeMachine.Proofs.Machine.Transcript
import TapeMachine.Proofs.Machine.WellFormed

/-!
# Resets

A cycle changes at most the state, the contents, the number of cycles and the fault of a machine. A reset sets
these four from what no cycle changes, the configuration and the contents stored at initialization. So
whatever is done with an initialized machine, failures and resets included, it stays one that a reset takes
back to where initialization left it (`Machine.RestoresTo`), and what follows a reset cannot be told from what
would have followed the initialization (`reset_after_init`).
-/

namespace TapeMachine.Machine

variable {σ α : Type}

/-- A machine with the configuration and the table of another, and its contents to go back to. -/
structure RestoresTo (m m₀ : Machine σ α) : Prop where
  config : m.config = m₀.config
  table : m.table = m₀.table
  stored : m.stored = some m₀.contents

theorem RestoresTo.isInitialized {m m₀ : Machine σ α} (h : m.RestoresTo m₀) :
    m.isInitialized = true := by
  rw [Machine.isInitialized, h.stored]
  rfl

/-- A reset brings back every field of a machine on which no cycle has been run. -/
theorem RestoresTo.reset_eq {m m₀ : Machine σ α} (h : m.RestoresTo m₀)
    (hstored : m₀.stored = some m₀.contents) (huntouched : m₀.Untouched) :
    m.reset = (m₀, .ok ()) := by
  refine reset_eq_ok_iff.mpr ⟨m₀.contents, h.stored, ?_⟩
  obtain ⟨config, table, state, contents, stored, stepCount, fault⟩ := m₀
  obtain ⟨hstate, hcount, hfault⟩ := huntouched
  obtain ⟨hconfig, htable, hcontents⟩ := h
  simp only at hstate hcount hfault hstored hconfig htable hcontents
  simp only [hconfig, htable, hcontents, hstate, hcount, hfault, hstored]

variable [DecidableEq σ]

/-- Initialization leaves a machine that goes back to itself. -/
theorem WellFormed.restoresTo_self [Quoted σ] {m m₀ : Machine σ α} (h : m.WellFormed)
    (hinit : m.init = (m₀, .ok ())) :
    m₀.RestoresTo m₀ ∧ m₀.stored = some m₀.contents ∧ m₀.Untouched := by
  obtain ⟨hbuilding, -, -, -, rfl⟩ := init_eq_ok_iff.mp hinit
  exact ⟨⟨rfl, rfl, rfl⟩, rfl, ⟨rfl, rfl, (h.untouched hbuilding).fault⟩⟩

variable [DecidableEq α] [Quoted σ] [Quoted α]

/-- Nothing that can still be done to an initialized machine changes where a reset takes it. -/
theorem RestoresTo.change {m m' m₀ : Machine σ α} (h : m.RestoresTo m₀) (hchange : Change m m') :
    m'.RestoresTo m₀ := by
  rcases hchange.cases_of_initialized h.isInitialized with
    ⟨a, -, -, rfl⟩ | ⟨-, -, rfl⟩ | ⟨c, -, rfl⟩
  · exact ⟨h.config, h.table, h.stored⟩
  · exact ⟨h.config, h.table, h.stored⟩
  · exact ⟨h.config, h.table, h.stored⟩

/-- A machine on which initialization has succeeded keeps its configuration, its table and the contents to go
back to under every call. At any time a reset succeeds and gives the machine of the initialization, so that
all later calls have the same answers and leave the same machines as if they were the first. -/
theorem reset_after_init {config : Config σ α} {building : List (Operation σ α)} {m : Machine σ α}
    (hinit : ((new config).after building).init = (m, .ok ())) (ops : List (Operation σ α)) :
    (∀ r ∈ m.transcript ops,
      r.1.config = m.config ∧ r.1.table = m.table ∧ r.1.stored = m.stored) ∧
    (m.after ops).reset = (m, .ok ()) ∧
    ∀ later : List (Operation σ α),
      m.transcript (ops ++ .reset :: later) =
        m.transcript ops ++ (m, .ok .done) :: m.transcript later := by
  have hbuilt : ((new config).after building).WellFormed := (wellFormed_new config).after building
  obtain ⟨hself, hstored, huntouched⟩ := hbuilt.restoresTo_self hinit
  have hafter : (m.after ops).RestoresTo m :=
    after_induction ops (fun _ _ => RestoresTo.change) hself
  have hreset : (m.after ops).reset = (m, .ok ()) := hafter.reset_eq hstored huntouched
  refine ⟨?_, hreset, ?_⟩
  · intro r hr
    have hentry := forall_mem_transcript (fun _ _ => RestoresTo.change) hself ops r hr
    exact ⟨hentry.config, hentry.table, hentry.stored.trans hstored.symm⟩
  · intro later
    have hperform : (m.after ops).perform .reset = (m, .ok .done) := by
      rw [perform, hreset]
      rfl
    rw [transcript_append, transcript, hperform]

/-- A consuming machine whose tape has grown past its front and whose stacks have lost their tops to a
failure, after calls that were refused. -/
theorem reset_after_init_failed :
    let rule : Rule Int Int := ⟨⟨0, [1], [3]⟩, [5], [4], [.left], 2⟩
    let building := [.addTape [1, 6], .addStack [2, 3], .addAction rule]
    let m := (new ⟨0, 1, ⟨0, 9⟩, .consume⟩).after (building ++ [.init])
    let ops := [.addTape [7], .runFor 5, .init, .step]
    ((new ⟨0, 1, ⟨0, 9⟩, .consume⟩).after building).init = (m, .ok ()) ∧
      (m.after ops).fault.isSome = true ∧ (m.after ops).stepCount = 1 ∧
      (m.after ops).contents.tapes.map Tape.cells = [[0, 5, 6]] ∧
      (m.after ops).contents.pushdowns.map Stack.items = [[2]] ∧
      (m.after ops).reset = (m, .ok ()) ∧
      m.transcript (ops ++ [.reset, .step]) =
        m.transcript ops ++ (m, .ok .done) :: m.transcript [.step] := by
  intro rule building m ops
  have hinit : ((new ⟨0, 1, ⟨0, 9⟩, .consume⟩).after building).init = (m, .ok ()) := rfl
  obtain ⟨-, hreset, hlater⟩ := reset_after_init hinit ops
  exact ⟨hinit, by decide, by decide, by decide, by decide, hreset, hlater [.step]⟩

end TapeMachine.Machine
