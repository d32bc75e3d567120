import TapeMachine.Files.Tree
import TapeMachine.Program.Read

/-!
# Programs in files

A program file is refused for its size before anything else, then for bytes that are no text, then
for what its text says. A directory's programs are its entries with the extension `json` whose paths
lead to no directory, and each is loaded for itself.
-/

namespace TapeMachine.Files

/-- The program in the content of a file, or in what reading the file gave instead. -/
def programOf (path : String) (content : Except Trouble ByteArray) : Except Fault Program :=
  match content with
  | .error t => .error (.unreadableFile path t.describe)
  | .ok bytes => do
    Program.checkSize bytes.size
    match String.fromUTF8? bytes with
    | some text => Program.ofText text
    | none => throw (.unreadableFile path "stream did not contain valid UTF-8")

/-- The program in the file at a path. -/
def loadProgram (top : Entry) (path : String) : Except Fault Program :=
  programOf path (top.read path)

/-- What follows the last dot of a name that has something before that dot. -/
def extension? (name : String) : Option String :=
  let (after, before) := name.toList.reverse.span (· != '.')
  match before with
  | '.' :: _ :: _ => some (String.ofList after.reverse)
  | _ => none

/-- A directory's path followed by a name in it. -/
def joinPath (directory name : String) : String :=
  if directory.toList.getLast? = some '/' then directory ++ name else directory ++ "/" ++ name

/-- The paths of the programs among the entries of a directory. A path that is too long leads
nowhere, so it counts even if the entry is a directory. -/
def programPaths (top : Entry) (directory : String) (entries : List (String × Entry)) :
    List String :=
  let named := (entries.map Prod.fst).filter fun name => extension? name == some "json"
  (named.map (joinPath directory)).filter fun path => !top.isDirectory path

/-- The programs in the directory at a path with the paths of their files, or a fault for each path
that leads to none. -/
def loadPrograms (top : Entry) (directory : String) : List (Except Fault (String × Program)) :=
  match top.list directory with
  | .error t => [.error (.unreadableDirectory directory t.describe)]
  | .ok entries =>
    (programPaths top directory entries).map fun path =>
      (loadProgram top path).map fun p => (path, p)

end TapeMachine.Files
