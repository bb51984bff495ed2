import Workflows.Node.Session

/-!
# Branches and assignments

* `decision`: chooses the branch `true` or `false` by a condition
* `switch`: chooses the first case whose value has the text of the subject
* `assignment`: sets variables one after the other
-/

namespace Workflows.Node
open Decode NodeRun

structure DecisionSettings where
  condition : Option String

def DecisionSettings.decode : Decoder DecisionSettings := fun v => do
  let f ← fields (plain ["condition"]) v
  return ⟨← f.orNone "condition" text⟩

/-- A condition that is no expression chooses the branch `false` and leaves a warning. -/
def decision (c : NodeContext) (n : Node) : NodeRun Outcome := do
  let s ← n.settings DecisionSettings.decode
  let condition ← demand (s.condition.filter fun t => Text.trim t ≠ "")
    ("No condition configured for decision " ++ n.id)
  let holds ← match condition? (← vars) condition with
    | some b => pure b
    | none => do
      c.warn n ("Condition '" ++ condition ++ "' could not be evaluated, taking the false branch")
      pure false
  return { Outcome.done (.ofMembers [("condition", .str condition), ("result", .bool holds)]) with
    route := some (if holds then "true" else "false") }

structure SwitchCase where
  id : String
  value : Json

def SwitchCase.decode : Decoder SwitchCase := fun v => do
  let f ← fields (plain ["id", "value"]) v
  return ⟨← f.required "id" text, ← f.withDefault "value" Decode.value .null⟩

structure SwitchSettings where
  subject : Option String
  cases : List SwitchCase

def SwitchSettings.decode : Decoder SwitchSettings := fun v => do
  let f ← fields [("variable", ["expression"]), ("cases", [])] v
  return ⟨← f.orNone "variable" text, ← f.withDefault "cases" (list SwitchCase.decode) []⟩

/-- the id of the first case whose value has a text -/
def matchedCase (cases : List SwitchCase) (subject : String) : String :=
  match cases.find? fun k => k.value.text = subject with
  | some k => k.id
  | none => "default"

def switch (n : Node) : NodeRun Outcome := do
  let s ← n.settings SwitchSettings.decode
  let subject ← demand s.subject ("No variable configured for switch " ++ n.id)
  let subject := (resolve (← vars) (.str subject)).text
  let route := matchedCase s.cases subject
  return { Outcome.done (.ofMembers [("value", .str subject), ("matched_case", .str route)]) with
    route := some route }

structure VariableAssignment where
  name : String
  value : Json

def VariableAssignment.decode : Decoder VariableAssignment := fun v => do
  let f ← fields (plain ["variable", "value"]) v
  return ⟨← f.required "variable" text, ← f.withDefault "value" Decode.value .null⟩

def assignmentsOf : Decoder (List VariableAssignment) := fun v => do
  let f ← fields (plain ["assignments"]) v
  f.withDefault "assignments" (list VariableAssignment.decode) []

/-- set variables in turn, each under the values set before it; the answer has what was set -/
def assign : List VariableAssignment → Vars → NodeRun Vars
  | [], assigned => return assigned
  | a :: as, assigned => do
    let value := evaluateDeep (← vars) a.value
    setVar a.name value
    assign as (Dict.insert assigned a.name value)

def assignment (n : Node) : NodeRun Outcome := do
  let as ← n.settings assignmentsOf
  let assigned ← assign as []
  return .done (.ofMembers [("assigned", .obj assigned)])

end Workflows.Node
