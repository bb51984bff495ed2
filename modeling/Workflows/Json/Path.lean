import Workflows.Json.Basic
import Workflows.Number.Read
import Workflows.Text.Class

/-!
# Paths into values

A dotted path walks into nested values: a step names a member of an object or a position in a list.

* `Json.at?`: the value at a path, where each step starts from the value that the last one led to
* `Json.walk?`: the value at the end of some steps, in one walk
* `Vars.lookup?`: a variable by its name, or by a name and a path
-/

namespace Workflows

namespace Json

/-- the member or item that a step names -/
def step? : Json → String → Option Json
  | .obj members, key => Dict.get? members key
  | .arr items, key => (Number.readIndex? key).bind fun i => items[i]?
  | _, _ => none

/-- the steps of a path -/
def pathSteps (path : String) : List String := Text.parts (· = '.') path

/-- the value at a path -/
def at? (v : Json) (path : String) : Option Json := (pathSteps path).foldlM step? v

/-- the value at the end of some steps -/
def walk? : Json → List String → Option Json
  | v, [] => some v
  | .obj members, k :: ks => match Dict.get? members k with
    | some w => walk? w ks
    | none => none
  | .arr items, k :: ks => match Number.readIndex? k with
    | some i => match items[i]? with
      | some w => walk? w ks
      | none => none
    | none => none
  | _, _ :: _ => none

end Json

/-- a variable by its whole name, or else by the first step of a path -/
def Vars.lookup? (vars : Vars) (name : String) : Option Json :=
  match Dict.get? vars name with
  | some v => some v
  | none => match Json.pathSteps name with
    | [] => none
    | first :: steps => (Dict.get? vars first).bind (·.walk? steps)

end Workflows
