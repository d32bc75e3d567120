import Mathlib.Data.List.Forall2
import Mathlib.Data.String.Basic
import TapeMachine.CommandLine.Run
import TapeMachine.Proofs.Files.Loading
import TapeMachine.Proofs.Program.WellFormed
import TapeMachine.Proofs.Session.Unattended
import TapeMachine.Proofs.Tape.Trimmed

/-!
# What a command line comes to

A command line loads a program, replaces the inputs and the mode and builds the machine (`machineOf`); then
it lets a session run the machine and reports what it is shown. To run the machine without a session comes to
the same: the outcome follows from where that run leaves the machine and from its result (`Reports`), and the
speed has no part in it (`run_reports_machine_run`).
-/

namespace TapeMachine

namespace CommandLine

/-! ## The way to the machine -/

variable (listing : Listing String Char)

/-- The blank and the machine of a loaded program, with the inputs and the mode of the options. -/
def machineOf (o : Options) (loaded : Except Fault Program) :
    Except Fault (Char × Machine String Char) := do
  let p ← demand ((← loaded).setTapes o.inputs)
  let p := if o.atomic then { p with mode := .atomic } else p
  return (p.blank, ← p.buildThrough listing)

theorem machineOf_eq (o : Options) (loaded : Except Fault Program) :
    machineOf listing o loaded =
      selectProgram o loaded >>= fun p => (p.buildThrough listing).map (p.blank, ·) := by
  cases loaded with
  | error f => rfl
  | ok p =>
    cases hset : demand (p.setTapes o.inputs) with
    | error f => simp only [machineOf, selectProgram, bind, Except.bind, hset]
    | ok p' =>
      simp only [machineOf, selectProgram, bind, Except.bind, hset, pure, Except.pure]
      rfl

variable {listing}

/-- What is built is the machine of a well-formed program. -/
theorem exists_program_of_machineOf {o : Options} {loaded : Except Fault Program} {blank : Char}
    {m : Machine String Char} (h : machineOf listing o loaded = .ok (blank, m)) :
    ∃ p : Program, p.WellFormed ∧ m = p.machine := by
  rw [machineOf_eq] at h
  cases hp : selectProgram o loaded with
  | error f =>
    rw [hp] at h
    cases h
  | ok p =>
    rw [hp] at h
    have hmap : (p.buildThrough listing).map (p.blank, ·) = .ok (blank, m) := h
    cases hbuild : p.buildThrough listing with
    | error f =>
      rw [hbuild] at hmap
      cases hmap
    | ok m' =>
      rw [hbuild] at hmap
      cases hmap
      exact ⟨p, Program.buildThrough_eq_ok_iff.mp hbuild⟩

theorem beginSession_eq (o : Options) (p : Program) :
    beginSession listing o p = (p.buildThrough listing).map fun m => .underway m o.speed := by
  unfold beginSession
  cases hbuild : p.buildThrough listing with
  | error f => rfl
  | ok m =>
    obtain ⟨-, rfl⟩ := Program.buildThrough_eq_ok_iff.mp hbuild
    rfl

/-- The session is begun with the machine that is built. -/
theorem prepare_eq (o : Options) (loaded : Except Fault Program) :
    prepare listing o loaded =
      (machineOf listing o loaded).map fun built => (built.1, .underway built.2 o.speed) := by
  rw [machineOf_eq, prepare]
  cases selectProgram o loaded with
  | error f => rfl
  | ok p =>
    show (beginSession listing o p >>= fun s => pure (p.blank, s)) =
      Except.map _ ((p.buildThrough listing).map (p.blank, ·))
    rw [beginSession_eq]
    cases p.buildThrough listing <;> rfl

/-! ## The report of a session that has ended -/

/-- The outcome of a run whose snapshots are given. -/
def reportOf (o : Options) (blank : Char) (before : List (Snapshot String Char))
    (last : Snapshot String Char) : Outcome :=
  let rest := closing o blank last
  { rest with output := records o (before ++ [last]) ++ rest.output }

theorem conclude_eq {s : Session String Char} {before : List (Snapshot String Char)}
    {last : Snapshot String Char} (hcalm : s.Calm) (hended : s.isRunning = false)
    (hdelivered : s.delivered.toList = before ++ [last]) (o : Options) (blank : Char) :
    conclude o blank s = reportOf o blank before last := by
  have hjoined : s.request .join = ((s.request .join).1, some (.ok none)) := by
    rw [Session.request_of_not_running hended]
    exact Prod.ext rfl (congrArg some hcalm.conclude_join)
  have hlast : s.delivered.back? = some last := by
    rw [← Array.getLast?_toList, hdelivered, List.getLast?_concat]
  have hending : ending o blank s = closing o blank last := by
    rw [ending, hjoined, hlast]
  rw [conclude, hending, hdelivered, reportOf]

/-- The outcome of a run that stops at its call `n`, counted from zero. -/
def outcomeOf (o : Options) (blank : Char) (m : Machine String Char) (n : Nat) : Outcome :=
  reportOf o blank (m.snapshots n) (cycleSnapshot (m.stepped (n + 1)) (m.stepped n).step.2)

variable {o : Options} {loaded : Except Fault Program} {blank : Char} {m : Machine String Char}
  {out : Outcome}

theorem execute_of_error {f : Fault} (h : machineOf listing o loaded = .error f) (fuel : Nat) :
    execute listing fuel o loaded = some (failure f) := by
  rw [execute, prepare_eq, h]
  rfl

/-- The command line comes to its end if the run of the machine does. -/
theorem exists_execute_eq_some_iff (h : machineOf listing o loaded = .ok (blank, m)) :
    (∃ fuel, execute listing fuel o loaded = some out) ↔
      ∃ n, m.StopsAt n ∧ out = outcomeOf o blank m n := by
  have hexecute : ∀ fuel, execute listing fuel o loaded =
      ((Session.underway m o.speed).settle fuel).map (conclude o blank) := by
    intro fuel
    rw [execute, prepare_eq, h]
    rfl
  have houtcome : ∀ fuel s, (Session.underway m o.speed).settle fuel = some s →
      ∃ n, m.StopsAt n ∧ conclude o blank s = outcomeOf o blank m n := by
    intro fuel s hsettle
    obtain ⟨hcalm, hended, n, hn, hdelivered⟩ := Session.delivered_of_settle hsettle
    rw [Machine.snapshots_succ] at hdelivered
    exact ⟨n, hn, conclude_eq hcalm hended hdelivered o blank⟩
  constructor
  · rintro ⟨fuel, hfuel⟩
    rw [hexecute] at hfuel
    obtain ⟨s, hsettle, rfl⟩ := Option.map_eq_some_iff.mp hfuel
    exact houtcome fuel s hsettle
  · rintro ⟨n, hn, rfl⟩
    obtain ⟨fuel, s, hsettle⟩ := Session.exists_settle_underway hn o.speed
    obtain ⟨n', hn', hconclude⟩ := houtcome fuel s hsettle
    refine ⟨fuel, ?_⟩
    rw [hexecute, hsettle, Option.map_some, hconclude, hn.unique hn']

/-! ## The outcome by the run of the machine -/

/-- The numbers in the records of a run with so many cycles. -/
def stepNumbers (cycles : Nat) (again : Bool) : List Nat :=
  List.range' 1 cycles ++ if again then [cycles] else []

/-- What is reported of a run that has failed. -/
def errorText {β : Type} : Except Fault β → String
  | .ok _ => ""
  | .error f => s!"\nMachine error: {f.message}\n"

/-- What a command line leaves behind whose machine `m` runs to `m'` with the given result. There is a record for
each cycle, and one more if the last call for a cycle fails or finds that the machine has halted before. -/
structure Reports (debug : Bool) (blank : Char) (m m' : Machine String Char)
    (result : Except Fault Unit) (out : Outcome) : Prop where
  code : out.code = if result.isOk then 0 else 1
  errors : out.errors = errorText result
  output : ∃ records lines : List String,
    records = (m.snapshots records.length).map recordText ∧
    List.Forall₂ (fun record number => ∃ rest, record = s!"Step: {number}, State: " ++ rest)
      records (stepNumbers m'.stepCount (!result.isOk || m.isHalted)) ∧
    List.Forall₂ (fun t line => Trimmed blank t.cells line.toList) m'.contents.tapes lines ∧
    out.output = (if debug then String.join records ++ "\nFinal tapes:\n" else "") ++
      String.join (lines.map (· ++ "\n"))

theorem exists_recordText_eq (s : Snapshot String Char) :
    ∃ rest, recordText s = s!"Step: {s.stepCount}, State: " ++ rest := by
  unfold recordText
  simp only [String.append_assoc]
  exact ⟨_, rfl⟩

theorem trimmed_toList (blank : Char) (t : Tape Char) :
    Trimmed blank t.cells (trimmed blank t).toList := by
  rw [trimmed, String.toList_ofList]
  exact trimmed_trim blank t.cells

theorem closing_cycleSnapshot (o : Options) (blank : Char) (m : Machine String Char)
    (result : Except Fault Progress) :
    closing o blank (cycleSnapshot m result) = {
      code := if result.isOk then 0 else 1
      output := (if o.debug then "\nFinal tapes:\n" else "") ++
        String.join (m.contents.tapes.map fun t => trimmed blank t ++ "\n")
      errors := errorText result } := by
  rcases result with f | _ | id <;> rfl

theorem reports_outcomeOf {n : Nat} (hn : m.StopsAt n) (hf : m.fault = none)
    (hcount : m.stepCount = 0) (o : Options) (blank : Char) :
    Reports o.debug blank m (m.stepped n).step.1 ((m.stepped n).step.2.map fun _ => ())
      (outcomeOf o blank m n) := by
  have hclosing := closing_cycleSnapshot o blank (m.stepped (n + 1)) (m.stepped n).step.2
  have hisOk : ((m.stepped n).step.2.map fun _ => ()).isOk = (m.stepped n).step.2.isOk := by
    cases (m.stepped n).step.2 <;> rfl
  refine ⟨?_, ?_, ?_⟩
  · show (closing o blank _).code = _
    rw [hclosing, hisOk]
  · show (closing o blank _).errors = _
    rw [hclosing]
    cases (m.stepped n).step.2 <;> rfl
  · obtain ⟨-, hnumbers⟩ := hn.stepCounts_eq hf hcount
    refine ⟨(m.snapshots (n + 1)).map recordText,
      (m.stepped n).step.1.contents.tapes.map (trimmed blank), ?_, ?_, ?_, ?_⟩
    · rw [List.length_map, Machine.length_snapshots]
    · rw [hisOk, stepNumbers, ← hnumbers, List.forall₂_map_left_iff, List.forall₂_map_right_iff,
        List.forall₂_same]
      exact fun s _ => exists_recordText_eq s
    · rw [List.forall₂_map_right_iff, List.forall₂_same]
      exact fun t _ => trimmed_toList blank t
    · show records o (m.snapshots n ++ [_]) ++ (closing o blank _).output = _
      rw [hclosing, ← Machine.snapshots_succ, List.map_map, Machine.stepped_succ, records]
      cases o.debug with
      | false => exact String.empty_append
      | true => exact String.append_assoc.symm

/-! ## Command lines -/

theorem run_eq {arguments : List String} (ho : Options.ofArguments? arguments = some o)
    (top : Files.Entry) (fuel : Nat) :
    run listing fuel top arguments =
      execute listing fuel o (Files.loadProgram top o.program) := by
  rw [run, ho]

/-- The outcome does not depend on the speed, nor on what is logged. -/
theorem exists_execute_eq_some_congr {o' : Options}
    (ho' : o' = { o with speed := o'.speed, verbose := o'.verbose }) :
    (∃ fuel, execute listing fuel o' loaded = some out) ↔
      ∃ fuel, execute listing fuel o loaded = some out := by
  have hmachine : machineOf listing o' loaded = machineOf listing o loaded := by
    rw [ho']
    rfl
  have houtcome : outcomeOf o' = outcomeOf o := by
    rw [ho']
    rfl
  cases hbuilt : machineOf listing o loaded with
  | error f =>
    rw [hbuilt] at hmachine
    simp only [execute_of_error hbuilt, execute_of_error hmachine]
  | ok built =>
    rw [hbuilt] at hmachine
    rw [exists_execute_eq_some_iff hbuilt, exists_execute_eq_some_iff hmachine, houtcome]

/-- A command line comes to what the library comes to without a session, in whichever order the actions of the
program are gone through. If no machine can be built, the fault is reported and nothing is printed. If one is
built and its run comes to an end, so does the command line, and the outcome reports where the run has left the
machine. Neither depends on the speed. -/
theorem run_reports_machine_run (listing : Listing String Char) {arguments : List String}
    (ho : Options.ofArguments? arguments = some o) (top : Files.Entry) :
    (∀ f, machineOf listing o (Files.loadProgram top o.program) = .error f →
      ∀ fuel, run listing fuel top arguments = some ⟨1, "", s!"Error: {f.message}\n"⟩) ∧
    (∀ blank m m' result,
      machineOf listing o (Files.loadProgram top o.program) = .ok (blank, m) →
      (∃ fuel, m.run fuel = some (m', result)) →
      m.AppliesFor m'.stepCount ∧ ¬(m.stepped m'.stepCount).Applies ∧
      ∃ out, (∃ fuel, run listing fuel top arguments = some out) ∧
        (∀ fuel out', run listing fuel top arguments = some out' → out' = out) ∧
        Reports o.debug blank m m' result out) ∧
    ∀ arguments' o', Options.ofArguments? arguments' = some o' →
      o' = { o with speed := o'.speed, verbose := o'.verbose } →
      ∀ out, (∃ fuel, run listing fuel top arguments' = some out) ↔
        ∃ fuel, run listing fuel top arguments = some out := by
  refine ⟨?_, ?_, ?_⟩
  · intro f hf fuel
    rw [run_eq ho, execute_of_error hf]
    rfl
  · intro blank m m' result hbuilt hrun
    obtain ⟨p, -, hm⟩ := exists_program_of_machineOf hbuilt
    have hf : m.fault = none := by
      rw [hm]
      rfl
    have hcount : m.stepCount = 0 := by
      rw [hm]
      rfl
    obtain ⟨x, happlies, hstops, hx⟩ := Machine.exists_run_eq_some_iff.mp hrun
    have hm' : m'.stepCount = x := by
      have hcycles := congrArg (fun c => c.1.stepCount) hx
      have hsame := Machine.stepCount_of_not_applies hstops
      rw [happlies.stepCount_eq, hcount, Nat.zero_add] at hsame
      exact hcycles.trans hsame
    obtain ⟨n, hn, hresult⟩ := Machine.exists_run_eq_some_iff_stopsAt.mp hrun
    cases hresult
    refine ⟨hm' ▸ happlies, hm' ▸ hstops, outcomeOf o blank m n, ?_, ?_,
      reports_outcomeOf hn hf hcount o blank⟩
    · simp only [run_eq ho]
      exact (exists_execute_eq_some_iff hbuilt).mpr ⟨n, hn, rfl⟩
    · intro fuel out' hout'
      rw [run_eq ho] at hout'
      obtain ⟨n', hn', rfl⟩ := (exists_execute_eq_some_iff hbuilt).mp ⟨fuel, hout'⟩
      rw [hn.unique hn']
  · intro arguments' o' ho' hsame out
    have hprogram : o'.program = o.program := by
      rw [hsame]
    simp only [run_eq ho, run_eq ho', hprogram]
    exact exists_execute_eq_some_congr hsame

/-- A file whose machine overwrites one symbol, with an input, a speed and records. -/
theorem run_reports_machine_run_overwritten :
    let p : Program :=
      { initial := "a", tapes := [""], actions := [⟨"a", "0", "", "1", "", "R", "halt"⟩] }
    let top : Files.Entry := .directory [("program.json", .file p.toText.toUTF8)]
    let arguments := ["--program", "program.json", "-i", "0", "-s", "5", "--debug"]
    ∃ o m m', Options.ofArguments? arguments = some o ∧
      machineOf .latestFirst o (Files.loadProgram top o.program) = .ok ('_', m) ∧
      m.run 1 = some (m', .ok ()) ∧ m'.stepCount = 1 ∧
      ∃ out, (∃ fuel, run .latestFirst fuel top arguments = some out) ∧
        Reports true '_' m m' (.ok ()) out := by
  intro p top arguments
  let o : Options := ⟨"program.json", ["0"], .perSecond 5 (by decide), false, true, false⟩
  let m := Program.machine { p with tapes := ["0"] }
  have ho : Options.ofArguments? arguments = some o := by decide
  have hsize : p.toText.utf8ByteSize ≤ programSizeLimit := by
    rw [Program.toText, String.utf8ByteSize_ofList]
    decide +kernel
  have hload : Files.loadProgram top "program.json" = .ok p :=
    Files.loadProgram_of_toText rfl hsize
  have hbuilt : machineOf .latestFirst o (Files.loadProgram top o.program) = .ok ('_', m) := by
    rw [hload]
    rfl
  have hrun : m.run 1 = some (m.step.1, .ok ()) := rfl
  obtain ⟨-, hreports, -⟩ := run_reports_machine_run .latestFirst ho top
  obtain ⟨-, -, out, hout, -, h⟩ := hreports '_' m m.step.1 (.ok ()) hbuilt ⟨1, hrun⟩
  exact ⟨o, m, m.step.1, ho, hbuilt, hrun, rfl, out, hout, h⟩

end CommandLine

end TapeMachine
