import TapeMachine.Proofs.CommandLine.Outcome
import TapeMachine.Proofs.Program.Inputs
import TapeMachine.Proofs.Program.Padding

/-!
# Blanks around the input

A program file with more blanks after its tapes and below its stacks cannot be told from the other by running
it: the machines run alike, and the command line, which prints the tapes without the blanks around them, comes
to the same outcome (`blanks_unobserved`). Only the records show what is stored.
-/

namespace TapeMachine

/-! ## Runs that are alike -/

namespace Machine.Alike

variable {σ α : Type} [DecidableEq σ] [DecidableEq α] [Quoted σ] [Quoted α] {m m' : Machine σ α}

theorem answer (h : m.Alike m') (k : Nat) : (m'.stepped k).step.2 = (m.stepped k).step.2 :=
  (h.stepped k).step.2

theorem stopsAt_iff (h : m.Alike m') {n : Nat} : m'.StopsAt n ↔ m.StopsAt n := by
  constructor
  · rintro ⟨hgoes, hstops⟩
    refine ⟨fun k hk => ?_, ?_⟩
    · rw [← h.answer]
      exact hgoes k hk
    · rw [← h.answer]
      exact hstops
  · rintro ⟨hgoes, hstops⟩
    refine ⟨fun k hk => ?_, ?_⟩
    · rw [h.answer]
      exact hgoes k hk
    · rw [h.answer]
      exact hstops

end Machine.Alike

/-! ## Inputs and modes -/

namespace Program.Pads

variable {p p' : Program}

/-- The inputs take the place of the same tapes. -/
theorem setTapes (h : p.Pads p') (inputs : List String) :
    (∃ f, demand (p.setTapes inputs) = .error f ∧ demand (p'.setTapes inputs) = .error f) ∨
      ∃ q q', demand (p.setTapes inputs) = .ok q ∧ demand (p'.setTapes inputs) = .ok q' ∧
        q.Pads q' := by
  unfold Program.setTapes
  rw [h.length_tapes]
  by_cases hmany : p.tapes.length < inputs.length
  · rw [if_pos hmany, if_pos hmany]
    exact .inl ⟨_, rfl, rfl⟩
  · rw [if_neg hmany, if_neg hmany]
    refine .inr ⟨_, _, rfl, rfl, ?_⟩
    obtain ⟨htapes, hpushdowns⟩ := h
    refine .intro ?_ hpushdowns
    have hinputs : List.Forall₂ (fun text text' : String =>
        ∃ n, text'.toList = text.toList ++ List.replicate n p.blank) inputs inputs :=
      List.forall₂_same.mpr fun text _ => ⟨0, (List.append_nil _).symm⟩
    exact List.rel_append hinputs (List.forall₂_drop _ htapes)

/-- The mode is that of the options for both. -/
theorem withMode (h : p.Pads p') (mode : Mode) :
    { p with mode := mode }.Pads { p' with mode := mode } := by
  obtain ⟨htapes, hpushdowns⟩ := h
  exact .intro htapes hpushdowns

end Program.Pads

namespace CommandLine

variable {p p' : Program} {o o' : Options}

theorem selectProgram_of_pads (h : p.Pads p') (hinputs : o'.inputs = o.inputs)
    (hatomic : o'.atomic = o.atomic) :
    (∃ f, selectProgram o (.ok p) = .error f ∧ selectProgram o' (.ok p') = .error f) ∨
      ∃ q q', selectProgram o (.ok p) = .ok q ∧ selectProgram o' (.ok p') = .ok q' ∧ q.Pads q' := by
  have hselect : ∀ (o : Options) (p : Program), selectProgram o (.ok p) =
      (demand (p.setTapes o.inputs)).map fun q =>
        if o.atomic then { q with mode := .atomic } else q :=
    fun _ _ => rfl
  rw [hselect, hselect, hinputs, hatomic]
  rcases h.setTapes o.inputs with ⟨f, hf, hf'⟩ | ⟨q, q', hq, hq', hpads⟩
  · rw [hf, hf']
    exact .inl ⟨f, rfl, rfl⟩
  · rw [hq, hq']
    refine .inr ⟨_, _, rfl, rfl, ?_⟩
    cases o.atomic with
    | false => exact hpads
    | true => exact hpads.withMode .atomic

/-- Inputs and modes do not change which keys fit. -/
theorem misfit?_of_selectProgram {q : Program} (hp : ∀ a ∈ p.actions, p.misfit? a = none)
    (hq : selectProgram o (.ok p) = .ok q) : ∀ a ∈ q.actions, q.misfit? a = none := by
  have hset : demand (p.setTapes o.inputs) >>= (fun q =>
      pure (if o.atomic then { q with mode := .atomic } else q)) = .ok q := hq
  rcases Nat.lt_or_ge p.tapes.length o.inputs.length with hmany | hfew
  · rw [Program.setTapes_of_lt hmany] at hset
    cases hset
  · rw [Program.setTapes_of_le hfew] at hset
    cases hset
    have hfits : ∀ a ∈ p.actions, (p.withInputs o.inputs).misfit? a = none := by
      intro a ha
      rw [Program.misfit?, Program.length_tapes_withInputs hfew]
      exact hp a ha
    cases o.atomic with
    | false => exact hfits
    | true => exact hfits

/-- No machine is built for the same fault, or two machines are built that are alike. The order in which actions
are gone through does not matter, since all keys fit. -/
theorem machineOf_of_pads (h : p.Pads p') (hp : ∀ a ∈ p.actions, p.misfit? a = none)
    (hinputs : o'.inputs = o.inputs) (hatomic : o'.atomic = o.atomic)
    (listing listing' : Listing String Char) :
    (∃ f, machineOf listing o (.ok p) = .error f ∧ machineOf listing' o' (.ok p') = .error f) ∨
      ∃ m m', machineOf listing o (.ok p) = .ok (m.config.marks.blank, m) ∧
        machineOf listing' o' (.ok p') = .ok (m.config.marks.blank, m') ∧ m.Alike m' := by
  rw [machineOf_eq, machineOf_eq]
  rcases selectProgram_of_pads h hinputs hatomic with ⟨f, hf, hf'⟩ | ⟨q, q', hq, hq', hpads⟩
  · rw [hf, hf']
    exact .inl ⟨f, rfl, rfl⟩
  · have hfits := misfit?_of_selectProgram hp hq
    have hbuilt : q'.buildThrough listing' = (q.buildThrough listing).map fun _ => q'.machine := by
      rw [hpads.buildThrough_eq, Program.buildThrough_of_fits hfits,
        Program.buildThrough_of_fits hfits]
    rw [hq, hq']
    show (∃ f, (q.buildThrough listing).map (q.blank, ·) = .error f ∧
        (q'.buildThrough listing').map (q'.blank, ·) = .error f) ∨
      ∃ m m', (q.buildThrough listing).map (q.blank, ·) = .ok (m.config.marks.blank, m) ∧
        (q'.buildThrough listing').map (q'.blank, ·) = .ok (m.config.marks.blank, m') ∧ m.Alike m'
    rw [hbuilt]
    cases hbuild : q.buildThrough listing with
    | error f => exact .inl ⟨f, rfl, rfl⟩
    | ok m =>
      obtain ⟨hwellFormed, rfl⟩ := Program.buildThrough_eq_ok_iff.mp hbuild
      have hbuild' : q'.buildThrough listing' = .ok q'.machine := by
        rw [hbuilt, hbuild]
        rfl
      have hblank : q'.blank = q.blank := congrArg (fun c => c.marks.blank) hpads.config_eq
      rw [hblank]
      exact .inr ⟨_, _, rfl, rfl,
        hpads.alike_machine hwellFormed (Program.buildThrough_eq_ok_iff.mp hbuild').1⟩

theorem trimmed_eq_of_core {blank : Char} {t t' : Tape Char} {core : List Char}
    (h : Trimmed blank t.cells core) (h' : Trimmed blank t'.cells core) :
    trimmed blank t' = trimmed blank t := by
  apply String.toList_injective
  rw [(trimmed_toList blank t').unique h', (trimmed_toList blank t).unique h]

/-- What is printed of machines that are alike is the same, without the records. -/
theorem outcomeOf_of_alike {m m' : Machine String Char} (h : m.Alike m') (n : Nat)
    (ho : o.debug = false) (ho' : o'.debug = false) :
    outcomeOf o' m.config.marks.blank m' n = outcomeOf o m.config.marks.blank m n := by
  have hlook := (h.stepped (n + 1)).lookAlike
  rw [Machine.config_stepped] at hlook
  have hlines : (m'.stepped (n + 1)).contents.tapes.map
        (fun t => trimmed m.config.marks.blank t ++ "\n") =
      (m.stepped (n + 1)).contents.tapes.map fun t => trimmed m.config.marks.blank t ++ "\n" :=
    map_eq_iff_forall₂.mpr <| hlook.tapes.imp fun t t' ⟨_, hcore, hcore'⟩ => by
      rw [trimmed_eq_of_core hcore hcore']
  unfold outcomeOf reportOf records
  rw [closing_cycleSnapshot, closing_cycleSnapshot, h.answer n, hlines, ho, ho']
  rfl

/-- Blanks after the tapes and below the stacks of a program are not seen. The program with them has a machine
too; under every limit the two machines give the same answer and are left looking alike; and the command line,
where it prints no records, comes to the same outcome for files with the two programs, whatever the inputs and
the mode. It does come to one if no machine can be built with the inputs, or if that machine's run ends. -/
theorem blanks_unobserved {m : Machine String Char} (hpads : p.Pads p') (hbuild : p.build = .ok m) :
    ∃ m', p'.build = .ok m' ∧
      (∀ n, (m'.runFor n).2 = (m.runFor n).2 ∧
        (m.runFor n).1.LookAlike p.blank (m'.runFor n).1) ∧
      ∀ top top' arguments arguments' o o' listing listing',
        Options.ofArguments? arguments = some o → Options.ofArguments? arguments' = some o' →
        o'.inputs = o.inputs → o'.atomic = o.atomic → o.debug = false → o'.debug = false →
        Files.loadProgram top o.program = .ok p → Files.loadProgram top' o'.program = .ok p' →
        (∀ out, (∃ fuel, run listing fuel top arguments = some out) ↔
          ∃ fuel, run listing' fuel top' arguments' = some out) ∧
        ((∀ blank n, machineOf listing o (.ok p) = .ok (blank, n) →
            ∃ fuel ended, n.run fuel = some ended) →
          ∃ out, (∃ fuel, run listing fuel top arguments = some out) ∧
            ∃ fuel, run listing' fuel top' arguments' = some out) := by
  obtain ⟨hp, rfl⟩ := Program.build_eq_ok_iff.mp hbuild
  have hbuild' : p'.build = .ok p'.machine := by
    rw [Program.build, hpads.buildThrough_eq, ← Program.build, hbuild]
    rfl
  have halike : p.machine.Alike p'.machine :=
    hpads.alike_machine hp (Program.build_eq_ok_iff.mp hbuild').1
  refine ⟨p'.machine, hbuild', fun n => ?_, ?_⟩
  · obtain ⟨hafter, hanswer⟩ := halike.runFor n
    have hconfig : (p.machine.runFor n).1.config = p.config := by
      obtain ⟨k, hk⟩ := Machine.runFrom_eq_stepped 0 n p.machine
      rw [Machine.runFor, hk, Machine.config_stepped]
      rfl
    have hlook := hafter.lookAlike
    rw [hconfig] at hlook
    exact ⟨hanswer, hlook⟩
  · intro top top' arguments arguments' o o' listing listing' ho ho' hinputs hatomic hdebug hdebug'
      hload hload'
    have hfits := (Program.wellFormed_iff.mp hp).2
    have hsame : ∀ out, (∃ fuel, run listing fuel top arguments = some out) ↔
        ∃ fuel, run listing' fuel top' arguments' = some out := by
      intro out
      simp only [run_eq ho, run_eq ho', hload, hload']
      rcases machineOf_of_pads hpads hfits hinputs hatomic listing listing' with
        ⟨f, hf, hf'⟩ | ⟨m, m', hm, hm', halike⟩
      · simp only [execute_of_error hf, execute_of_error hf']
      · rw [exists_execute_eq_some_iff hm, exists_execute_eq_some_iff hm']
        simp only [halike.stopsAt_iff, outcomeOf_of_alike halike _ hdebug hdebug']
    refine ⟨hsame, fun hends => ?_⟩
    have hcomes : ∃ out fuel, run listing fuel top arguments = some out := by
      simp only [run_eq ho, hload]
      cases hbuilt : machineOf listing o (.ok p) with
      | error f => exact ⟨failure f, 0, execute_of_error hbuilt 0⟩
      | ok built =>
        obtain ⟨fuel, ended, hrun⟩ := hends built.1 built.2 hbuilt
        obtain ⟨n, hn, -⟩ := Machine.exists_run_eq_some_iff_stopsAt.mp ⟨fuel, hrun⟩
        exact ⟨_, (exists_execute_eq_some_iff hbuilt).mpr ⟨n, hn, rfl⟩⟩
    obtain ⟨out, hout⟩ := hcomes
    exact ⟨out, hout, (hsame out).mp hout⟩

/-- A blank that is popped in one program and found below an empty stack in the other. -/
theorem blanks_unobserved_popped :
    let p : Program :=
      { initial := "a", tapes := ["0"], pushdowns := [""],
        actions := [⟨"a", "0", "_", "1", "*", "R", "halt"⟩] }
    let p' : Program := { p with tapes := ["0__"], pushdowns := ["_"] }
    let top : Files.Entry := .directory
      [("p.json", .file p.toText.toUTF8), ("q.json", .file p'.toText.toUTF8)]
    p.Pads p' ∧ ∃ m m', p.build = .ok m ∧ p'.build = .ok m' ∧
      (m.runFor 1).2 = .ok 1 ∧ (m'.runFor 1).2 = .ok 1 ∧
      (m.runFor 1).1.LookAlike '_' (m'.runFor 1).1 ∧
      ∃ out, (∃ fuel, run .latestFirst fuel top ["-p", "p.json"] = some out) ∧
        ∃ fuel, run .latestFirst fuel top ["-p", "q.json", "-s", "9"] = some out := by
  intro p p' top
  have hpads : p.Pads p' :=
    .intro (.cons ⟨2, by decide⟩ .nil) (.cons ⟨1, by decide⟩ .nil)
  have hbuild : p.build = .ok p.machine := rfl
  have hrun : (p.machine.runFor 1).2 = .ok 1 := by decide
  obtain ⟨m', hbuild', hruns, hcommands⟩ := blanks_unobserved hpads hbuild
  refine ⟨hpads, p.machine, m', hbuild, hbuild', hrun, (hruns 1).1.trans hrun, (hruns 1).2, ?_⟩
  let o : Options := ⟨"p.json", [], .unlimited, false, false, false⟩
  let o' : Options := ⟨"q.json", [], .perSecond 9 (by decide), false, false, false⟩
  have hsize : p.toText.utf8ByteSize ≤ programSizeLimit := by
    rw [Program.toText, String.utf8ByteSize_ofList]
    decide +kernel
  have hsize' : p'.toText.utf8ByteSize ≤ programSizeLimit := by
    rw [Program.toText, String.utf8ByteSize_ofList]
    decide +kernel
  have hload : Files.loadProgram top "p.json" = .ok p :=
    Files.loadProgram_of_toText rfl hsize
  have hload' : Files.loadProgram top "q.json" = .ok p' :=
    Files.loadProgram_of_toText rfl hsize'
  have hends : ∀ blank n, machineOf .latestFirst o (.ok p) = .ok (blank, n) →
      ∃ fuel ended, n.run fuel = some ended := by
    intro blank n hbuilt
    have hmachine : machineOf .latestFirst o (.ok p) = .ok ('_', p.machine) := rfl
    cases hmachine.symm.trans hbuilt
    exact ⟨1, _, rfl⟩
  have ho : Options.ofArguments? ["-p", "p.json"] = some o := by decide
  have ho' : Options.ofArguments? ["-p", "q.json", "-s", "9"] = some o' := by decide
  obtain ⟨-, hcomes⟩ := hcommands top top _ _ o o' .latestFirst .latestFirst ho ho' rfl rfl rfl rfl
    hload hload'
  exact hcomes hends

end CommandLine

end TapeMachine
