import Workflows.Dict
import Workflows.Text.Class

/-!
# Files

The files that a command reads and writes, by path from the working directory.

* `Disk`: the files and directories that are known
* `Disk.read`, `Disk.write`, `Disk.contains`: the operations
-/

namespace Workflows

/-- Why a file cannot be read or written. -/
inductive FileError where
  | missing | isDirectory | notDirectory
  deriving DecidableEq, Repr

def FileError.message : FileError → String
  | .missing => "No such file or directory (os error 2)"
  | .isDirectory => "Is a directory (os error 21)"
  | .notDirectory => "Not a directory (os error 20)"

/-- The known files and directories.  The working directory is always there. -/
structure Disk where
  files : Dict String := []
  directories : List String := []
  deriving DecidableEq, Repr

namespace Disk

/-- whether a path begins at the root -/
def isAbsolute (path : String) : Bool := path.toList.head? = some '/'

/-- the names along a path, without those that stay where they are -/
def names (path : String) : List String := (Text.parts (· = '/') path).filter fun n => n ≠ "" && n ≠ "."

/-- the path along some names -/
def pathOf (absolute : Bool) (ns : List String) : String :=
  (if absolute then "/" else "") ++ String.intercalate "/" ns

/-- one spelling for each path -/
def normal (path : String) : String := pathOf (isAbsolute path) (names path)

/-- the directories above a path, the nearest first -/
def above (path : String) : List String :=
  let rec go : List String → List String
    | [] => []
    | _ :: up => pathOf (isAbsolute path) up.reverse :: go up
  go (names path).reverse

/-- whether a path in its normal spelling is a directory -/
def isDirectory (d : Disk) (path : String) : Bool := path = "" || path = "/" || d.directories.contains path

/-- the error for a path that is no file -/
def errorAt (d : Disk) (path : String) : FileError :=
  if path ≠ "" && d.isDirectory (normal path) then .isDirectory
  else if (above path).any fun p => Dict.contains d.files p then .notDirectory
  else .missing

/-- the text of a file -/
def read (d : Disk) (path : String) : Except FileError String :=
  match Dict.get? d.files (normal path) with
  | some text => .ok text
  | none => .error (d.errorAt path)

/-- whether there is a file or a directory -/
def contains (d : Disk) (path : String) : Bool :=
  path ≠ "" && (Dict.contains d.files (normal path) || d.isDirectory (normal path))

/-- the files with a new text for one of them -/
def write (d : Disk) (path text : String) : Except FileError Disk :=
  let known := Dict.contains d.files (normal path) ||
    (!d.isDirectory (normal path) && match above path with
      | up :: _ => d.isDirectory up
      | [] => false)
  if known then .ok { d with files := Dict.insert d.files (normal path) text }
  else .error (d.errorAt path)

end Disk
end Workflows
