import Std.Time.DateTime.Timestamp
import Workflows.Command.Perform

/-!
# The program

Reads the files that a command line names, answers it, and writes the files that have changed.
-/

namespace Workflows.Program

/-- a number as hexadecimal digits in a fixed width -/
def hexDigits (width n : Nat) : List Char :=
  let digits := Nat.toDigits 16 (n % Nat.pow 16 width)
  List.replicate (width - digits.length) '0' ++ digits

/-- the random id with a number, from two random numbers -/
def idFrom (high low n : Nat) : String :=
  let first := hexDigits 8 high ++ ['-'] ++ hexDigits 4 (high / Nat.pow 16 8)
  let second := ['-', '4'] ++ hexDigits 3 (high / Nat.pow 16 12) ++ ['-', 'a'] ++ hexDigits 3 (high / Nat.pow 16 15)
  String.ofList (first ++ second ++ ['-'] ++ hexDigits 12 (low + n))

/-- services cannot be reached from this program -/
def noService (_ : Nat) (_ : HttpRequest) : Except NodeError HttpReply :=
  .error (.executionFailed "HTTP request failed: there is no connection to services")

def environment : IO Env := do
  let now ← Std.Time.Timestamp.now
  let high ← IO.rand 0 (Nat.pow 16 18 - 1)
  let low ← IO.rand 0 (Nat.pow 16 11 - 1)
  return {
    settings := {}
    epoch := .ofTotalNanos now.toNanosecondsSinceUnixEpoch.val
    idName := idFrom high low
    reply := noService }

/-- the answer of an action, where it succeeds -/
def attempt? (action : IO α) : IO (Option α) := do
  try return some (← action)
  catch _ => return none

def isDirectory (path : String) : IO Bool := return (← attempt? (IO.FS.realPath (path ++ "/."))).isSome

/-- the files and directories that some paths lead to -/
def loadDisk (paths : List String) : IO Disk := do
  let mut disk : Disk := {}
  for path in paths do
    let path := Disk.normal path
    for directory in path :: Disk.above path do
      if directory ≠ "" && (← isDirectory directory) then
        disk := { disk with directories := directory :: disk.directories }
    match ← attempt? (IO.FS.readFile path) with
    | some text => disk := { disk with files := Dict.insert disk.files path text }
    | none => pure ()
  return disk

/-- write the files that differ -/
def saveDisk (before after : Disk) : IO Unit := do
  for (path, text) in after.files do
    if Dict.get? before.files path ≠ some text then IO.FS.writeFile path text

end Workflows.Program

open Workflows in
def main (arguments : List String) : IO UInt32 := do
  let paths := match Invocation.parse arguments with
    | .ok i => i.paths
    | .error _ => []
  let disk ← Program.loadDisk paths
  let answer := commandLine (← Program.environment) disk arguments
  Program.saveDisk disk answer.disk
  for line in answer.output do IO.println line
  for line in answer.errors do IO.eprintln line
  return answer.code.toUInt32
