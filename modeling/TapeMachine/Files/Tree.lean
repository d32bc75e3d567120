/-!
# File trees

Files and directories as a value, and what a path leads to in it. A path begins at the top of the
tree or, with a slash in front, at the root of the system; names are separated by slashes, `.` stays
where it is and `..` goes up. Only a directory can be passed through. Of the system outside the tree
no more is known than what every system has at its root.
-/

namespace TapeMachine.Files

/-- A file or a directory. -/
inductive Entry where
  | file (content : ByteArray)
  | directory (entries : List (String × Entry))

/-- Why a path cannot be used. -/
inductive Trouble where
  | notFound
  | notDirectory
  | isDirectory
  | nameTooLong
  | nulInName
  | other (reason : String)
  deriving DecidableEq, Repr

namespace Trouble

/-- The system's words for a trouble. -/
def describe : Trouble → String
  | notFound => "No such file or directory (os error 2)"
  | notDirectory => "Not a directory (os error 20)"
  | isDirectory => "Is a directory (os error 21)"
  | nameTooLong => "File name too long (os error 36)"
  | nulInName => "file name contained an unexpected NUL byte"
  | other reason => reason

end Trouble

/-- The greatest length in bytes of a name. -/
def nameLimit : Nat := 255

/-- The greatest length in bytes of a path. -/
def pathLimit : Nat := 4095

/-- The names in a path. Two slashes in a row and a slash at the end have an empty name between or
behind them, which leads nowhere else. -/
def names (path : String) : List String :=
  (path.toList.splitOn '/').map String.ofList

namespace Entry

/-- The directory without entries. -/
def empty : Entry :=
  .directory []

/-- What every system has at its root: a directory of devices, with the one that is always empty,
and a directory for temporary files. -/
def root : Entry :=
  .directory [("dev", .directory [("null", .file .empty)]), ("tmp", empty)]

/-- Follows names from an entry, below the directories that lie above it, nearest first. The
uppermost directory lies above itself. -/
def follow (above : List Entry) (e : Entry) : List String → Except Trouble Entry
  | [] => .ok e
  | name :: rest =>
    match e with
    | .file _ => .error .notDirectory
    | .directory entries =>
      if name = "" ∨ name = "." then follow above e rest
      else if name = ".." then
        match above with
        | [] => follow [] e rest
        | parent :: above => follow above parent rest
      else if nameLimit < name.utf8ByteSize then .error .nameTooLong
      else
        match entries.lookup name with
        | some next => follow (e :: above) next rest
        | none => .error .notFound

/-- The entry that a path leads to from the top or the root. The directory above the top is not
known to contain anything. -/
def resolve (top : Entry) (path : String) : Except Trouble Entry :=
  if path.toList.contains '\x00' then .error .nulInName
  else if path = "" then .error .notFound
  else if pathLimit < path.utf8ByteSize then .error .nameTooLong
  else if path.toList.head? = some '/' then root.follow [] (names path)
  else top.follow [empty] (names path)

/-- Tells whether a path leads to a directory. -/
def isDirectory (top : Entry) (path : String) : Bool :=
  match top.resolve path with
  | .ok (.directory _) => true
  | _ => false

/-- The content of the file at a path. -/
def read (top : Entry) (path : String) : Except Trouble ByteArray :=
  match top.resolve path with
  | .error t => .error t
  | .ok (.directory _) => .error .isDirectory
  | .ok (.file content) => .ok content

/-- The entries of the directory at a path. -/
def list (top : Entry) (path : String) : Except Trouble (List (String × Entry)) :=
  match top.resolve path with
  | .error t => .error t
  | .ok (.file _) => .error .notDirectory
  | .ok (.directory entries) => .ok entries

/-- Puts an entry at the end of a path, with the directories on the way. -/
def place (top : Entry) (leaf : Entry) : (path : List String) → Entry
  | [] => leaf
  | name :: rest =>
    let entries := match top with
      | .file _ => []
      | .directory entries => entries
    let old := (entries.lookup name).getD empty
    .directory (entries.filter (fun e => e.1 != name) ++ [(name, place old leaf rest)])

end Entry

end TapeMachine.Files
