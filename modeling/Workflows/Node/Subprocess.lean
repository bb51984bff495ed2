import Workflows.Instance.Codec
import Workflows.Node.Session
import Workflows.Subprocess.Mapping
import Workflows.Subprocess.Resolve

/-!
# Subprocesses

A subprocess node starts an instance of another workflow as a child and waits for it.  The nesting level and the
definition are checked before anything is started.

* `startChild`: checks, start, and the link of parent and child
* `subprocess`: the node
-/

namespace Workflows.Node
open Decode NodeRun

structure SubprocessSettings where
  workflowId : Option String
  version : Option String
  /-- sources in the parent by variables of the child -/
  inputMapping : Dict String
  /-- variables of the child by variables of the parent -/
  outputMapping : Dict String
  isolated : Bool

def SubprocessSettings.decode : Decoder SubprocessSettings := fun v => do
  let f ← fields [("workflow_id", ["workflowId"]), ("version", []), ("input_mapping", ["inputMapping"]),
    ("output_mapping", ["outputMapping"]), ("isolated", ["isolate_context", "isolateContext"])] v
  return {
    workflowId := ← f.orNone "workflow_id" text
    version := ← f.orNone "version" text
    inputMapping := ← f.withDefault "input_mapping" (dict text) []
    outputMapping := ← f.withDefault "output_mapping" (dict text) []
    isolated := ← f.withDefault "isolated" bool false }

/-- send warnings in turn -/
def warnAll (c : NodeContext) (n : Node) : List String → NodeRun Unit
  | [] => return ()
  | w :: ws => do
    c.warn n w
    warnAll c n ws

/-- ask the launcher for an instance -/
def launch (launcher : Launcher) (request : StartRequest) : NodeRun String := do
  modify fun s => { s with launched := s.launched.push request }
  match ← onWorld (launcher request).run with
  | .ok id => return id
  | .error e => throw (.executionFailed ("Failed to start subprocess " ++ request.workflowId ++ ": " ++ e.message))

/-- what a child is started from -/
def childRequest (c : NodeContext) (s : SubprocessSettings) (vs : Vars) (workflowId token : String) (level : Nat) :
    StartRequest where
  workflowId := workflowId
  triggeredBy := "subprocess:" ++ c.instanceId
  inputs := childVariables vs s.inputMapping s.isolated
  parentId := some c.instanceId
  nestingLevel := level
  workflowVersion := some token

/-- start the child of a node and link it to its parent -/
def startChild (c : NodeContext) (launcher : Launcher) (n : Node) : NodeRun ChildLink := do
  let s ← n.settings SubprocessSettings.decode
  let workflowId ← demand (s.workflowId.filter (· ≠ "")) ("No workflow configured for subprocess " ++ n.id)
  let token := s.version.getD latestToken
  let level ← childLevel c.env.settings.maxNestingLevel c.nestingLevel
  let report ← fromStore (·.validate workflowId token)
  warnAll c n report.warnings
  if report.valid then
    let childId ← launch launcher (childRequest c s (← vars) workflowId token level)
    onWorld World.tick
    let createdAt ← c.now
    let link : ChildLink := {
      parentId := c.instanceId, parentNodeId := n.id, childId, outputMapping := s.outputMapping
      isolated := s.isolated, nestingLevel := level, createdAt }
    changeStore (·.insertLink link)
    return link
  else
    throw (.executionFailed ("Subprocess validation failed: " ++ String.intercalate "; " report.errors))

def subprocess (c : NodeContext) (n : Node) : NodeRun Outcome := do
  match c.launcher with
  | none => throw (.executionFailed ("Subprocess " ++ n.id ++ " cannot start outside an engine"))
  | some launcher => do
    let link ← startChild c launcher n
    c.info n ("Started child instance " ++ link.childId)
    return .waiting ⟨.subprocess, link.childId, none⟩
      (some (.ofMembers [("child_instance_id", .str link.childId), ("nesting_level", .ofNat link.nestingLevel),
        ("isolated", .bool link.isolated)]))

end Workflows.Node
