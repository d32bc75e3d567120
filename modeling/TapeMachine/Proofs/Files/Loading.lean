import Mathlib.Data.List.TakeDrop
import TapeMachine.Proofs.Files.Paths
import TapeMachine.Proofs.Program.RoundTrip

/-!
# Programs in files and directories

A file holds what the text in it says, unless it is too large or holds no text (`programOf_of_lt`,
`programOf_of_not_text`, `programOf_toUTF8`). What a directory gives is made up of what each of its entries
adds, and that depends on nothing but the entry and the path of the directory (`contribution`,
`loadPrograms_eq`).

An entry that is a directory adds nothing as long as its path can be followed. Where the path of the directory
leaves no room for the name, the loader can no longer tell, and takes it for a file that cannot be read.
-/

namespace TapeMachine

theorem fromUTF8?_eq_some_iff {bytes : ByteArray} {text : String} :
    String.fromUTF8? bytes = some text ↔ text.toUTF8 = bytes := by
  unfold String.fromUTF8?
  constructor
  · intro h
    split at h
    · cases h
      rfl
    · cases h
  · rintro rfl
    have hvalid : text.toUTF8.IsValidUTF8 := text.isValidUTF8
    rw [dif_pos hvalid]
    rfl

theorem fromUTF8?_toUTF8 (text : String) : String.fromUTF8? text.toUTF8 = some text :=
  fromUTF8?_eq_some_iff.mpr rfl

namespace Files

/-! ## The content of a file -/

section

variable {path : String} {content : ByteArray}

theorem programOf_of_lt (h : programSizeLimit < content.size) :
    programOf path (.ok content) = .error (.invalidProgram (.tooLarge content.size)) := by
  simp only [programOf, Program.checkSize_of_lt h]
  rfl

theorem programOf_of_not_text (hle : content.size ≤ programSizeLimit)
    (h : ∀ text : String, text.toUTF8 ≠ content) :
    programOf path (.ok content) =
      .error (.unreadableFile path "stream did not contain valid UTF-8") := by
  have hnone : String.fromUTF8? content = none := by
    cases hsome : String.fromUTF8? content with
    | none => rfl
    | some text => exact absurd (fromUTF8?_eq_some_iff.mp hsome) (h text)
  simp only [programOf, Program.checkSize_of_le hle, hnone]
  rfl

/-- The size is checked of the bytes and of the text, but it is the same. -/
theorem programOf_toUTF8 (path text : String) :
    programOf path (.ok text.toUTF8) = Program.ofText text := by
  have hsize : text.toUTF8.size = text.utf8ByteSize := rfl
  simp only [programOf, Program.ofText, hsize, fromUTF8?_toUTF8]
  cases Program.checkSize text.utf8ByteSize <;> rfl

end

section

variable {top : Entry} {path : String}

theorem loadProgram_of_file {content : ByteArray} (h : top.resolve path = .ok (.file content)) :
    loadProgram top path = programOf path (.ok content) := by
  rw [loadProgram, Entry.read, h]

theorem loadProgram_of_error {t : Trouble} (h : top.resolve path = .error t) :
    loadProgram top path = .error (.unreadableFile path t.describe) := by
  rw [loadProgram, Entry.read, h]
  rfl

/-- A program that is written to a file within the size limit is loaded from there. -/
theorem loadProgram_of_toText {p : Program} (hread : top.read path = .ok p.toText.toUTF8)
    (hsize : p.toText.utf8ByteSize ≤ programSizeLimit) : loadProgram top path = .ok p := by
  have hchars : p.toText.toList = p.toJson := by
    rw [Program.toText, String.toList_ofList]
  rw [loadProgram, hread, programOf_toUTF8]
  simp only [Program.ofText, Program.checkSize_of_le hsize, hchars, p.decode_toJson]
  rfl

end

/-! ## Names of programs -/

/-- A name with something before its extension `json`. -/
def IsProgramName (name : String) : Prop :=
  ∃ stem, stem ≠ "" ∧ name = stem ++ ".json"

/-- The extension of a name is what follows its last dot. -/
theorem extension?_eq_some_iff {name extension : String} :
    extension? name = some extension ↔
      '.' ∉ extension.toList ∧ ∃ stem, stem ≠ "" ∧ name = stem ++ "." ++ extension := by
  unfold extension?
  rw [List.span_eq_takeWhile_dropWhile]
  constructor
  · intro h
    have hparts := List.takeWhile_append_dropWhile (p := (· != '.')) (l := name.toList.reverse)
    have hafter : '.' ∉ name.toList.reverse.takeWhile (· != '.') := by
      intro hmem
      simpa using List.mem_takeWhile_imp hmem
    generalize name.toList.reverse.takeWhile (· != '.') = after at *
    generalize name.toList.reverse.dropWhile (· != '.') = before at *
    simp only at h
    split at h
    · rename_i c before
      cases h
      refine ⟨by simpa using hafter, String.ofList (c :: before).reverse, by simp, ?_⟩
      apply String.toList_injective
      rw [← List.reverse_reverse name.toList, ← hparts]
      simp
    · cases h
  · rintro ⟨hdot, stem, hstem, rfl⟩
    obtain ⟨c, before, hbefore⟩ : ∃ c before, stem.toList.reverse = c :: before := by
      apply List.exists_cons_of_ne_nil
      simpa using hstem
    have hreverse : (stem ++ "." ++ extension).toList.reverse =
        extension.toList.reverse ++ '.' :: c :: before := by
      rw [← hbefore]
      simp
    have hafter : ∀ c ∈ extension.toList.reverse, (c != '.') = true := by
      intro c hc
      have hne : c ≠ '.' := by
        rintro rfl
        exact hdot (List.mem_reverse.mp hc)
      simpa using hne
    rw [hreverse, List.takeWhile_append_of_pos hafter, List.dropWhile_append_of_pos hafter]
    simp

theorem extension?_eq_json_iff {name : String} :
    extension? name = some "json" ↔ IsProgramName name := by
  rw [extension?_eq_some_iff, IsProgramName]
  constructor
  · rintro ⟨-, stem, hstem, rfl⟩
    exact ⟨stem, hstem, String.append_assoc⟩
  · rintro ⟨stem, hstem, rfl⟩
    have hdot : '.' ∉ "json".toList := by decide
    refine ⟨hdot, stem, hstem, ?_⟩
    rw [String.append_assoc]
    rfl

/-! ## The entries of a directory -/

/-- What an entry adds to the programs of the directory at a path. -/
def contribution (directory : String) (e : String × Entry) :
    Option (Except Fault (String × Program)) :=
  let path := joinPath directory e.1
  if extension? e.1 = some "json" then
    if pathLimit < path.utf8ByteSize then
      some (.error (.unreadableFile path Trouble.nameTooLong.describe))
    else
      match e.2 with
      | .directory _ => none
      | .file content => some ((programOf path (.ok content)).map fun p => (path, p))
  else none

section

variable {top : Entry} {directory : String} {entries : List (String × Entry)}

theorem contribution_of_lt {e : String × Entry} (hname : extension? e.1 = some "json")
    (hlong : pathLimit < (joinPath directory e.1).utf8ByteSize) :
    contribution directory e =
      some (.error (.unreadableFile (joinPath directory e.1) Trouble.nameTooLong.describe)) := by
  rw [contribution, if_pos hname, if_pos hlong]

/-- An entry adds what is loaded from its path, if it has the name of a program and its path leads to no
directory. -/
theorem contribution_eq (htop : top.WellFormed) (hlist : top.list directory = .ok entries)
    {e : String × Entry} (he : e ∈ entries) :
    contribution directory e =
      if extension? e.1 = some "json" ∧ top.isDirectory (joinPath directory e.1) = false then
        some ((loadProgram top (joinPath directory e.1)).map fun p => (joinPath directory e.1, p))
      else none := by
  have hresolve := Entry.resolve_joinPath htop hlist he
  by_cases hname : extension? e.1 = some "json"
  · by_cases hlong : pathLimit < (joinPath directory e.1).utf8ByteSize
    · rw [if_pos hlong] at hresolve
      have hdirectory : top.isDirectory (joinPath directory e.1) = false := by
        rw [Entry.isDirectory, hresolve]
      rw [contribution_of_lt hname hlong, if_pos ⟨hname, hdirectory⟩, loadProgram_of_error hresolve]
      rfl
    · rw [if_neg hlong] at hresolve
      rw [contribution, if_pos hname, if_neg hlong]
      obtain ⟨name, content | below⟩ := e
      · have hdirectory : top.isDirectory (joinPath directory name) = false := by
          rw [Entry.isDirectory, hresolve]
        rw [if_pos ⟨hname, hdirectory⟩, loadProgram_of_file hresolve]
      · have hdirectory : top.isDirectory (joinPath directory name) = true := by
          rw [Entry.isDirectory, hresolve]
        simp [hdirectory]
  · simp [contribution, hname]

/-- The programs of a directory are what its entries add, each for itself. -/
theorem loadPrograms_eq (htop : top.WellFormed) (hlist : top.list directory = .ok entries) :
    loadPrograms top directory = entries.filterMap (contribution directory) := by
  have hcounted : entries.filterMap (contribution directory) =
      entries.filterMap fun e =>
        if extension? e.1 = some "json" ∧ top.isDirectory (joinPath directory e.1) = false then
          some ((loadProgram top (joinPath directory e.1)).map fun p => (joinPath directory e.1, p))
        else none := by
    apply List.filterMap_congr
    intro e he
    exact contribution_eq htop hlist he
  rw [hcounted, loadPrograms, hlist]
  simp only [programPaths]
  clear hcounted hlist
  induction entries with
  | nil => rfl
  | cons e entries ih =>
    simp only [List.map_cons, List.filter_cons, List.filterMap_cons]
    by_cases hname : extension? e.1 = some "json" <;>
      cases hdirectory : top.isDirectory (joinPath directory e.1) <;>
      simp [hname, hdirectory, ih]

/-- Which entries add something, and what it is. -/
theorem contribution_eq_some_iff (htop : top.WellFormed) (hlist : top.list directory = .ok entries)
    {name : String} {e : Entry} (he : (name, e) ∈ entries)
    {element : Except Fault (String × Program)} :
    contribution directory (name, e) = some element ↔
      IsProgramName name ∧
        ((∃ content, e = .file content) ∨
          pathLimit < (joinPath directory name).utf8ByteSize) ∧
        element = (loadProgram top (joinPath directory name)).map
          fun p => (joinPath directory name, p) := by
  have hresolve := Entry.resolve_joinPath htop hlist he
  have hdirectory : top.isDirectory (joinPath directory name) = false ↔
      (∃ content, e = .file content) ∨ pathLimit < (joinPath directory name).utf8ByteSize := by
    unfold Entry.isDirectory
    rw [hresolve]
    by_cases hlong : pathLimit < (joinPath directory name).utf8ByteSize
    · simp [hlong]
    · cases e <;> simp [hlong]
  rw [contribution_eq htop hlist he, ← extension?_eq_json_iff, ← hdirectory]
  by_cases hcounts :
      extension? name = some "json" ∧ top.isDirectory (joinPath directory name) = false
  · simp [hcounts, eq_comm]
  · rw [if_neg hcounts]
    simp only [reduceCtorEq, false_iff]
    rintro ⟨hname, hfile, -⟩
    exact hcounts ⟨hname, hfile⟩

end

/-! ## Paths without room for a name -/

/-- A path with slashes at its end. -/
def slashed (path : String) : Nat → String
  | 0 => path
  | n + 1 => slashed path n ++ "/"

theorem utf8ByteSize_slashed (path : String) (n : Nat) :
    (slashed path n).utf8ByteSize = path.utf8ByteSize + n := by
  induction n with
  | zero => rfl
  | succ n ih =>
    have hslash : "/".utf8ByteSize = 1 := rfl
    rw [slashed, String.utf8ByteSize_append, ih, hslash, Nat.add_assoc]

theorem Entry.list_slashed {top : Entry} {path : String} {entries : List (String × Entry)}
    (h : top.list path = .ok entries) {n : Nat} (hle : path.utf8ByteSize + n ≤ pathLimit) :
    top.list (slashed path n) = .ok entries := by
  induction n with
  | zero => exact h
  | succ n ih =>
    refine list_append_slash (ih (by omega)) ?_
    rw [utf8ByteSize_slashed]
    omega

/-! ## Loading -/

/-- A file that is not too large and holds text gives what the text gives. A directory gives one element for
each of its entries that has the name of a program and is a file, namely what is loaded from its path, so no
entry has a part in what another one adds; besides there is one for each directory with such a name whose path
is too long to be followed. Whatever cannot be listed gives one fault. -/
theorem loading_agrees {top : Entry} (htop : top.WellFormed) :
    (∀ path content, top.resolve path = .ok (.file content) →
      (programSizeLimit < content.size →
        loadProgram top path = .error (.invalidProgram (.tooLarge content.size))) ∧
      (content.size ≤ programSizeLimit → (∀ text : String, text.toUTF8 ≠ content) →
        loadProgram top path =
          .error (.unreadableFile path "stream did not contain valid UTF-8")) ∧
      ∀ text : String, text.toUTF8 = content → loadProgram top path = Program.ofText text) ∧
    (∀ directory entries, top.list directory = .ok entries →
      loadPrograms top directory = entries.filterMap (contribution directory) ∧
      ∀ name e, (name, e) ∈ entries →
        (top.resolve (joinPath directory name) = .ok e ∨
          pathLimit < (joinPath directory name).utf8ByteSize) ∧
        ∀ element, contribution directory (name, e) = some element ↔
          IsProgramName name ∧
            ((∃ content, e = .file content) ∨
              pathLimit < (joinPath directory name).utf8ByteSize) ∧
            element = (loadProgram top (joinPath directory name)).map
              fun p => (joinPath directory name, p)) ∧
    ∀ directory t, top.list directory = .error t →
      loadPrograms top directory = [.error (.unreadableDirectory directory t.describe)] := by
  refine ⟨?_, ?_, ?_⟩
  · intro path content hfile
    rw [loadProgram_of_file hfile]
    refine ⟨programOf_of_lt, programOf_of_not_text, ?_⟩
    rintro text rfl
    exact programOf_toUTF8 path text
  · intro directory entries hlist
    refine ⟨loadPrograms_eq htop hlist, ?_⟩
    intro name e he
    refine ⟨?_, fun element => contribution_eq_some_iff htop hlist he⟩
    rw [Entry.resolve_joinPath htop hlist he]
    split
    · exact .inr ‹_›
    · exact .inl rfl
  · intro directory t hlist
    rw [loadPrograms, hlist]

/-- Of a directory that holds one file whose extension is `json`, without text in it. -/
theorem loading_agrees_shelf :
    let shelf : List (String × Entry) :=
      [("a.b.json", .file ⟨#[0xff]⟩), (".json", .file .empty), ("json", .file .empty),
        ("x.json", .empty)]
    let top := Entry.directory [("d", .directory shelf)]
    top.WellFormed ∧
      loadProgram top "d/.json" = Program.ofText "" ∧
      loadPrograms top "d/" =
        [.error (.unreadableFile "d/a.b.json" "stream did not contain valid UTF-8")] ∧
      loadPrograms top "e" =
        [.error (.unreadableDirectory "e" "No such file or directory (os error 2)")] := by
  intro shelf top
  have hshelf : Entry.WellFormed (.directory shelf) := by
    refine .directory (by decide) ?_ ?_
    · simp only [shelf, List.forall_mem_cons, List.not_mem_nil, false_implies, implies_true, and_true]
      refine ⟨?_, ?_, ?_, ?_⟩ <;> constructor <;> decide
    · simp only [shelf, List.forall_mem_cons, List.not_mem_nil, false_implies, implies_true, and_true]
      exact ⟨.file _, .file _, .file _, Entry.wellFormed_empty⟩
  have htop : top.WellFormed := by
    refine .directory (by decide) ?_ (List.forall_mem_singleton.mpr hshelf)
    refine List.forall_mem_singleton.mpr ?_
    constructor <;> decide
  obtain ⟨hfiles, hdirectories, hunlisted⟩ := loading_agrees htop
  refine ⟨htop, ?_, ?_, ?_⟩
  · exact (hfiles "d/.json" .empty rfl).2.2 "" rfl
  · exact (hdirectories "d/" shelf rfl).1
  · exact hunlisted "e" .notFound rfl

/-- Where there is no room for a name behind the path of a directory, what the name stands for cannot be told,
and a directory is not left out. -/
theorem long_path_adds_directory :
    let top := Entry.directory [("d", .directory [("x.json", .empty)])]
    let directory := slashed "d" 4094
    top.list directory = .ok [("x.json", .empty)] ∧
      loadPrograms top directory =
        [.error (.unreadableFile (joinPath directory "x.json")
          "File name too long (os error 36)")] := by
  intro top directory
  have hproper : ProperName "d" ∧ ProperName "x.json" := by
    constructor <;> constructor <;> decide
  have htop : top.WellFormed := by
    refine .directory (by decide) (by simpa using hproper.1) ?_
    refine List.forall_mem_singleton.mpr (.directory (by decide) (by simpa using hproper.2) ?_)
    exact List.forall_mem_singleton.mpr Entry.wellFormed_empty
  have hd : "d".utf8ByteSize = 1 := rfl
  have hx : "x.json".utf8ByteSize = 6 := rfl
  have hlist : top.list directory = .ok [("x.json", .empty)] := by
    apply Entry.list_slashed
    · rfl
    · simp only [hd, pathLimit]
      omega
  have hlong : pathLimit < (joinPath directory "x.json").utf8ByteSize := by
    unfold joinPath
    split <;>
      simp only [String.utf8ByteSize_append, directory, utf8ByteSize_slashed, hd, hx, pathLimit] <;>
      omega
  have hname : extension? "x.json" = some "json" := rfl
  refine ⟨hlist, ?_⟩
  rw [loadPrograms_eq htop hlist]
  exact List.filterMap_cons_some (contribution_of_lt hname hlong)

end Files

end TapeMachine
