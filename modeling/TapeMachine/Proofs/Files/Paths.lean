import TapeMachine.Files.Load

/-!
# Paths in a file tree

In a tree whose directories give every entry a name of its own (`Entry.WellFormed`), the path of a directory and
the name of one of its entries make up a path that leads to this entry, wherever the directory is and
however its path is written (`Entry.resolve_joinPath`). The one thing that can prevent it is that the path gets
too long.
-/

namespace TapeMachine.Files

/-- A name that the entry of a directory can have. -/
structure ProperName (name : String) : Prop where
  ne_empty : name ≠ ""
  /-- It does not stand for the directory itself, -/
  ne_here : name ≠ "."
  /-- nor for the one above. -/
  ne_above : name ≠ ".."
  slash : '/' ∉ name.toList
  nul : '\x00' ∉ name.toList
  short : name.utf8ByteSize ≤ nameLimit

namespace Entry

/-- A tree in which the entries of each directory have different names, and such as they can have. -/
inductive WellFormed : Entry → Prop
  | file (content : ByteArray) : WellFormed (.file content)
  | directory {entries : List (String × Entry)} : (entries.map Prod.fst).Nodup →
      (∀ e ∈ entries, ProperName e.1) → (∀ e ∈ entries, WellFormed e.2) →
      WellFormed (.directory entries)

theorem WellFormed.names {entries : List (String × Entry)} (h : WellFormed (.directory entries)) :
    (entries.map Prod.fst).Nodup := by
  cases h with
  | directory hnames hproper hentries => exact hnames

theorem WellFormed.proper {entries : List (String × Entry)} (h : WellFormed (.directory entries))
    {name : String} {e : Entry} (he : (name, e) ∈ entries) : ProperName name := by
  cases h with
  | directory hnames hproper hentries => exact hproper _ he

theorem wellFormed_empty : WellFormed empty :=
  .directory (by simp) (by simp) (by simp)

/-- What is known of every system is well-formed. -/
theorem wellFormed_root : WellFormed root := by
  have hdev : WellFormed (.directory [("null", .file .empty)]) := by
    refine .directory (by simp) ?_ ?_
    · simp only [List.mem_singleton, forall_eq]
      constructor <;> decide
    · simp only [List.mem_singleton, forall_eq]
      exact .file .empty
  refine .directory (by simp) ?_ ?_
  · simp only [List.forall_mem_cons, List.not_mem_nil, false_implies, implies_true, and_true]
    constructor <;> constructor <;> decide
  · simp only [List.forall_mem_cons, List.not_mem_nil, false_implies, implies_true, and_true]
    exact ⟨hdev, wellFormed_empty⟩

/-! ## Following names -/

/-- Names are followed one by one, so a path fails where its first part fails and goes on from where its first
part leads. -/
theorem follow_append_cases (above : List Entry) (e : Entry) (first rest : List String) :
    (∃ t, follow above e first = .error t ∧ follow above e (first ++ rest) = .error t) ∨
      ∃ above' e', follow above e first = .ok e' ∧
        follow above e (first ++ rest) = follow above' e' rest := by
  induction first generalizing above e with
  | nil => exact .inr ⟨above, e, rfl, rfl⟩
  | cons name first ih =>
    cases e with
    | file content => exact .inl ⟨.notDirectory, rfl, rfl⟩
    | directory entries =>
      simp only [List.cons_append, follow]
      by_cases hhere : name = "" ∨ name = "."
      · simp only [if_pos hhere]
        exact ih above (.directory entries)
      · simp only [if_neg hhere]
        by_cases habove : name = ".."
        · simp only [if_pos habove]
          cases above with
          | nil => exact ih [] (.directory entries)
          | cons parent above => exact ih above parent
        · simp only [if_neg habove]
          by_cases hlong : nameLimit < name.utf8ByteSize
          · simp only [if_pos hlong]
            exact .inl ⟨.nameTooLong, rfl, rfl⟩
          · simp only [if_neg hlong]
            cases entries.lookup name with
            | none => exact .inl ⟨.notFound, rfl, rfl⟩
            | some next => exact ih (.directory entries :: above) next

/-- An empty name leads nowhere else. -/
theorem follow_of_append_empty {above : List Entry} {e : Entry} {first : List String}
    {entries : List (String × Entry)}
    (h : follow above e (first ++ [""]) = .ok (.directory entries)) :
    follow above e first = .ok (.directory entries) := by
  rcases follow_append_cases above e first [""] with ⟨t, -, herror⟩ | ⟨above', e', hfirst, hrest⟩
  · rw [h] at herror
    cases herror
  · rw [hfirst]
    rw [h] at hrest
    cases e' with
    | file content => cases hrest
    | directory entries' => exact hrest.symm

theorem mem_of_lookup {entries : List (String × Entry)} {name : String} {e : Entry}
    (h : entries.lookup name = some e) : (name, e) ∈ entries := by
  obtain ⟨before, after, hentries, -⟩ := List.lookup_eq_some_iff.mp h
  rw [hentries]
  simp

theorem lookup_of_mem {entries : List (String × Entry)} {name : String} {e : Entry}
    (hnames : (entries.map Prod.fst).Nodup) (h : (name, e) ∈ entries) :
    entries.lookup name = some e := by
  obtain ⟨before, after, rfl⟩ := List.append_of_mem h
  refine List.lookup_eq_some_iff.mpr ⟨before, after, rfl, ?_⟩
  intro other hother
  rw [List.map_append, List.map_cons, List.nodup_append] at hnames
  have hne := hnames.2.2 other.1 (List.mem_map_of_mem hother) name (by simp)
  simpa using Ne.symm hne

/-- What a path leads to in a well-formed tree is well-formed. -/
theorem WellFormed.follow {above : List Entry} {e e' : Entry} {path : List String}
    (habove : ∀ a ∈ above, a.WellFormed) (he : e.WellFormed)
    (h : Entry.follow above e path = .ok e') : e'.WellFormed := by
  induction path generalizing above e with
  | nil =>
    cases h
    exact he
  | cons name path ih =>
    cases he with
    | file content => cases h
    | @directory entries hnames hproper hentries =>
      have hself : WellFormed (.directory entries) := .directory hnames hproper hentries
      simp only [Entry.follow] at h
      split at h
      · exact ih habove hself h
      · split at h
        · cases above with
          | nil => exact ih habove hself h
          | cons parent above =>
            obtain ⟨hparent, habove⟩ := List.forall_mem_cons.mp habove
            exact ih habove hparent h
        · split at h
          · cases h
          · split at h
            · rename_i next hnext
              refine ih ?_ (hentries _ (mem_of_lookup hnext)) h
              exact List.forall_mem_cons.mpr ⟨hself, habove⟩
            · cases h

/-- The name of an entry leads to it. -/
theorem follow_append_name {above : List Entry} {e e' : Entry} {first : List String}
    {entries : List (String × Entry)} {name : String} (hwf : WellFormed (.directory entries))
    (hfirst : follow above e first = .ok (.directory entries)) (h : (name, e') ∈ entries) :
    follow above e (first ++ [name]) = .ok e' := by
  have hname := hwf.proper h
  have hhere : ¬(name = "" ∨ name = ".") := not_or.mpr ⟨hname.ne_empty, hname.ne_here⟩
  rcases follow_append_cases above e first [name] with ⟨t, herror, -⟩ | ⟨above', d, hd, hrest⟩
  · rw [hfirst] at herror
    cases herror
  · rw [hfirst] at hd
    cases hd
    rw [hrest]
    simp only [follow, if_neg hhere, if_neg hname.ne_above, if_neg (Nat.not_lt.mpr hname.short),
      lookup_of_mem hwf.names h]

/-! ## Whole paths -/

/-- Where a path begins, with the directories above. -/
def origin (top : Entry) (path : String) : List Entry × Entry :=
  if path.toList.head? = some '/' then ([], root) else ([empty], top)

theorem resolve_eq (top : Entry) {path : String} (hnul : '\x00' ∉ path.toList) (hpath : path ≠ "") :
    top.resolve path =
      if pathLimit < path.utf8ByteSize then .error .nameTooLong
      else follow (top.origin path).1 (top.origin path).2 (names path) := by
  have hcontains : path.toList.contains '\x00' = false := by
    simpa using hnul
  rw [resolve, hcontains, if_neg Bool.false_ne_true, if_neg hpath]
  by_cases hroot : path.toList.head? = some '/'
  · simp only [origin, if_pos hroot]
  · simp only [origin, if_neg hroot]

/-- A path that leads anywhere can be followed. -/
theorem follow_of_resolve {top e : Entry} {path : String} (h : top.resolve path = .ok e) :
    '\x00' ∉ path.toList ∧ path ≠ "" ∧
      follow (top.origin path).1 (top.origin path).2 (names path) = .ok e := by
  have hnul : '\x00' ∉ path.toList := by
    intro hmem
    have hcontains : path.toList.contains '\x00' = true := by
      simpa using hmem
    rw [resolve, if_pos hcontains] at h
    cases h
  have hpath : path ≠ "" := by
    rintro rfl
    cases h
  refine ⟨hnul, hpath, ?_⟩
  rw [resolve_eq top hnul hpath] at h
  split at h
  · cases h
  · exact h

theorem list_eq_ok_iff {top : Entry} {path : String} {entries : List (String × Entry)} :
    top.list path = .ok entries ↔ top.resolve path = .ok (.directory entries) := by
  unfold list
  split <;> simp_all

theorem WellFormed.list {top : Entry} (htop : top.WellFormed) {path : String}
    {entries : List (String × Entry)} (h : top.list path = .ok entries) :
    WellFormed (.directory entries) := by
  obtain ⟨-, -, hfollow⟩ := follow_of_resolve (list_eq_ok_iff.mp h)
  unfold origin at hfollow
  split at hfollow
  · exact WellFormed.follow (by simp) wellFormed_root hfollow
  · refine WellFormed.follow ?_ htop hfollow
    simp only [List.mem_singleton, forall_eq]
    exact wellFormed_empty

end Entry

/-- A slash at the end of a directory's path leads nowhere else. -/
theorem Entry.list_append_slash {top : Entry} {path : String} {entries : List (String × Entry)}
    (h : top.list path = .ok entries) (hlt : path.utf8ByteSize < pathLimit) :
    top.list (path ++ "/") = .ok entries := by
  obtain ⟨hnul, hpath, hfollow⟩ := follow_of_resolve (list_eq_ok_iff.mp h)
  have hsize : (path ++ "/").utf8ByteSize = path.utf8ByteSize + 1 := by
    rw [String.utf8ByteSize_append]
    rfl
  have hchars : path.toList ≠ [] := by
    simpa using hpath
  have hnul' : '\x00' ∉ (path ++ "/").toList := by
    simpa using hnul
  have hpath' : path ++ "/" ≠ "" := by
    simp
  have horigin : top.origin (path ++ "/") = top.origin path := by
    unfold origin
    rw [String.toList_append, List.head?_append, List.head?_eq_some_head hchars, Option.some_or]
  have hnames : names (path ++ "/") = names path ++ [""] := by
    unfold names
    have hslash : (path ++ "/").toList = path.toList ++ '/' :: [] := String.toList_append
    rw [hslash, List.splitOn_append_cons_self]
    simp
  rw [list_eq_ok_iff, resolve_eq top hnul' hpath', if_neg (by omega), horigin, hnames]
  rcases follow_append_cases (top.origin path).1 (top.origin path).2 (names path) [""] with
    ⟨t, herror, -⟩ | ⟨above', e', hfirst, hrest⟩
  · rw [hfollow] at herror
    cases herror
  · rw [hfollow] at hfirst
    cases hfirst
    rw [hrest]
    rfl

/-! ## A directory and a name in it -/

theorem toList_joinPath (directory name : String) :
    ∃ gap, (∀ c ∈ gap, c = '/') ∧
      (joinPath directory name).toList = directory.toList ++ (gap ++ name.toList) := by
  unfold joinPath
  split
  · exact ⟨[], by simp, by simp⟩
  · exact ⟨['/'], by simp, by simp⟩

/-- The names of a joined path are those of the directory and the last one. Only the empty name behind a slash
at the end is gone. -/
theorem names_joinPath (directory : String) {name : String} (hslash : '/' ∉ name.toList) :
    ∃ first, names (joinPath directory name) = first ++ [name] ∧
      (names directory = first ∨ names directory = first ++ [""]) := by
  have hjoined (before : List Char) : ((before ++ '/' :: name.toList).splitOn '/').map String.ofList =
      (before.splitOn '/').map String.ofList ++ [name] := by
    rw [List.splitOn_append_cons_self, List.splitOn_eq_singleton hslash, List.map_append,
      List.map_singleton, String.ofList_toList]
  unfold joinPath
  by_cases hlast : directory.toList.getLast? = some '/'
  · obtain ⟨before, hdirectory⟩ := List.getLast?_eq_some_iff.mp hlast
    refine ⟨(before.splitOn '/').map String.ofList, ?_, .inr ?_⟩
    · rw [if_pos hlast, names, String.toList_append, hdirectory, List.append_assoc]
      exact hjoined before
    · rw [names, hdirectory, List.splitOn_append_cons_self]
      simp
  · refine ⟨names directory, ?_, .inl rfl⟩
    rw [if_neg hlast, names, String.toList_append, String.toList_append, List.append_assoc]
    exact hjoined directory.toList

/-- In a well-formed tree the path of a directory and the name of an entry lead to the entry, unless they
are too long together. -/
theorem Entry.resolve_joinPath {top e : Entry} {directory name : String}
    {entries : List (String × Entry)} (htop : top.WellFormed)
    (hlist : top.list directory = .ok entries) (he : (name, e) ∈ entries) :
    top.resolve (joinPath directory name) =
      if pathLimit < (joinPath directory name).utf8ByteSize then .error .nameTooLong else .ok e := by
  have hwf := htop.list hlist
  obtain ⟨hnul, hdirectory, hfollow⟩ := follow_of_resolve (list_eq_ok_iff.mp hlist)
  have hname := hwf.proper he
  obtain ⟨gap, hgap, hjoined⟩ := toList_joinPath directory name
  have hchars : directory.toList ≠ [] := by
    simpa using hdirectory
  have hhead : (joinPath directory name).toList.head? = directory.toList.head? := by
    rw [hjoined, List.head?_append, List.head?_eq_some_head hchars, Option.some_or]
  have hnul' : '\x00' ∉ (joinPath directory name).toList := by
    rw [hjoined, List.mem_append, List.mem_append]
    rintro (hmem | hmem | hmem)
    · exact hnul hmem
    · cases hgap _ hmem
    · exact hname.nul hmem
  have hjoined' : joinPath directory name ≠ "" := by
    intro hempty
    rw [hempty] at hhead
    rw [List.head?_eq_some_head hchars] at hhead
    cases hhead
  have horigin : top.origin (joinPath directory name) = top.origin directory := by
    unfold origin
    rw [hhead]
  rw [resolve_eq top hnul' hjoined', horigin]
  obtain ⟨first, hfirst, hnames⟩ := names_joinPath directory hname.slash
  have hled : follow (top.origin directory).1 (top.origin directory).2 first =
      .ok (.directory entries) := by
    rcases hnames with hnames | hnames
    · rw [← hnames]
      exact hfollow
    · rw [hnames] at hfollow
      exact follow_of_append_empty hfollow
  rw [hfirst, follow_append_name hwf hled he]

end TapeMachine.Files
