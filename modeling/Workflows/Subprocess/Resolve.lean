import Workflows.Definition.Graph
import Workflows.Json.Decode
import Workflows.Store.Basic

/-!
# Definitions by version

A version token selects what a subprocess runs: the live definition, the newest published version, or the version
with a label.

* `Store.resolvePinned?`: the definition, and the label that an instance of it keeps
* `Store.resolve?`: the definition alone
* `Store.validate`: whether a workflow can be run as a subprocess
-/

namespace Workflows

/-- the token of the live definition -/
def latestToken : String := "latest"

/-- the token of the newest published version -/
def publishedToken : String := "published"

/-- the youngest of some versions, the last one of equal age -/
def Version.newest? (vs : List Version) : Option Version :=
  vs.foldl (fun best v => match best with
    | some b => if v.createdAt.before b.createdAt then some b else some v
    | none => some v) none

/-- the version that a token selects -/
def Version.select? (vs : List Version) (token : String) : Option Version :=
  if token = publishedToken then newest? (vs.filter fun v => v.status = .published)
  else vs.find? fun v => v.label = token

/-- Whether a definition has a subprocess node that names its own workflow. -/
def Definition.invokesItself (d : Definition) : Bool :=
  d.nodes.any fun n => n.kind = .subprocess &&
    ["workflow_id", "workflowId"].any fun key => n.data.member? key = some (.str d.id)

/-- What speaks against running a workflow as a subprocess. -/
structure ValidationReport where
  valid : Bool
  errors : List String
  warnings : List String
  deriving DecidableEq, Repr

namespace ValidationReport

/-- a report is valid if it has no errors -/
def of (errors warnings : List String) : ValidationReport := ⟨errors.isEmpty, errors, warnings⟩

/-- a line of a report, where a condition holds -/
def line (condition : Bool) (text : String) : List String := if condition then [text] else []

/-- the report on a definition -/
def ofDefinition (workflowId : String) (d : Definition) : ValidationReport :=
  of
    (line (d.status ≠ .published && d.status ≠ .draft)
        ("Workflow " ++ workflowId ++ " is " ++ d.status.name ++ " and cannot be used as a subprocess") ++
      line d.invokesItself ("Workflow " ++ workflowId ++ " invokes itself as a subprocess") ++
      line d.startNode?.isNone ("Workflow " ++ workflowId ++ " has no start node"))
    (line (!d.subprocessCompatible) ("Workflow " ++ workflowId ++ " is not marked subprocess compatible") ++
      line (!d.hasEnd) ("Workflow " ++ workflowId ++ " has no end node") ++
      line (!d.unreachable.isEmpty) ("Unreachable nodes: " ++ String.intercalate ", " d.unreachable))

def encode (r : ValidationReport) : Json :=
  .ofMembers [("valid", .bool r.valid), ("errors", .ofStrings r.errors), ("warnings", .ofStrings r.warnings)]

open Decode in
def decode : Decoder ValidationReport := fun v => do
  let f ← fields (plain ["valid", "errors", "warnings"]) v
  return ⟨← f.required "valid" bool, ← f.required "errors" (list text), ← f.required "warnings" (list text)⟩

end ValidationReport

namespace Store

/-- The definition that a token selects, and the label of its version; the live definition has none. -/
def resolvePinned? (s : Store) (workflowId token : String) : Option (Definition × Option String) :=
  if token = "" || token = latestToken then (s.getWorkflow? workflowId).map (·, none)
  else (Version.select? (s.listVersions workflowId) token).map fun v => (v.definition, some v.label)

def resolve? (s : Store) (workflowId token : String) : Option Definition :=
  (s.resolvePinned? workflowId token).map (·.1)

/-- the report on the definition that a token selects -/
def validate (s : Store) (workflowId token : String) : ValidationReport :=
  match s.resolve? workflowId token with
  | some d => .ofDefinition workflowId d
  | none => .of ["Workflow " ++ workflowId ++ " (version " ++ token ++ ") not found"] []

end Store
end Workflows
