import Workflows.Definition.Graph
import Workflows.Instance.Basic
import Workflows.Event.Basic
import Workflows.Json.Printer
import Workflows.Number.Fixed
import Workflows.Subprocess.Tree

/-!
# Reports

The lines that commands print.

* `Event.line`: what happened
* `Instance.summaryLines`: the state of an instance
* `ExecutionTree.lines`: an instance and its descendants, by indentation
* `checkDefinition`: problems and warnings of a workflow
-/

namespace Workflows

/-- an indentation of some levels -/
def margin (levels : Nat) : String := String.join (List.replicate levels "  ")

/-- the line on an event -/
def Event.line (e : Event) : String :=
  match e.happening with
  | .instanceStarted workflowId level =>
    margin level ++ "▶️  Instance " ++ e.instanceId ++ " of " ++ workflowId ++ " started"
  | .statusChanged .completed _ => "✨ Instance " ++ e.instanceId ++ " completed"
  | .statusChanged .failed (some error) => "💥 Instance " ++ e.instanceId ++ " failed: " ++ error
  | .statusChanged status _ => "🔸 Instance " ++ e.instanceId ++ " is " ++ status.name
  | .nodeStarted nodeId nodeType => "  ⚡ Starting node: " ++ nodeId ++ " (" ++ nodeType ++ ")"
  | .nodeCompleted nodeId millis => "  ✅ Node " ++ nodeId ++ " completed in " ++ toString millis ++ "ms"
  | .nodeWaiting nodeId wait => "  ⏳ Node " ++ nodeId ++ " waiting on " ++ wait.kind.title ++ " " ++ wait.id
  | .nodeFailed nodeId error => "  ❌ Node " ++ nodeId ++ " failed: " ++ error
  | .nodeRetrying nodeId attempt error =>
    "  🔁 Node " ++ nodeId ++ " attempt " ++ toString attempt ++ " failed, retrying: " ++ error
  | .nodeMessage nodeId (.info m) => "     ℹ️  [" ++ nodeId ++ "] " ++ m
  | .nodeMessage nodeId (.warning m) => "     ⚠️  [" ++ nodeId ++ "] " ++ m

/-- a line with a value, where there is one -/
def optionalLine (label : String) (value : Option String) : List String :=
  match value with
  | some v => [label ++ v]
  | none => []

/-- the lines on a wait -/
def Wait.lines (w : Wait) : List String :=
  ("   Waiting for: " ++ w.kind.title ++ " " ++ w.id) ::
    optionalLine "   Deadline: " (w.deadline.map (Instant.writeWith "+00:00"))

/-- a section with a heading, unless it is empty -/
def sectionLines (heading : String) (lines : List String) : List String :=
  if lines.isEmpty then [] else "" :: heading :: lines

def ChildEntry.line (c : ChildEntry) : String :=
  "   " ++ c.instanceId ++ " via " ++ c.nodeId ++ " (" ++ c.workflowId ++ "): " ++ c.status.name

/-- the state of an instance -/
def Instance.summaryLines (i : Instance) : List String :=
  ["📊 Instance Summary:", "   Instance ID: " ++ i.id, "   Workflow: " ++ i.workflowId] ++
  optionalLine "   Version: " i.workflowVersion ++
  ["   Status: " ++ i.status.name] ++
  optionalLine "   Current node: " i.currentNodeId ++
  ((i.waitingFor.map Wait.lines).getD []) ++
  optionalLine "   Error: " i.error ++
  optionalLine "   " i.friendlyError ++
  ["   Executed: " ++ toString i.log.length ++ " node runs"] ++
  sectionLines "📤 Variables:" (i.vars.map fun e => "   " ++ e.1 ++ ": " ++ e.2.compact) ++
  sectionLines "🌳 Children:" (i.children.map ChildEntry.line)

namespace ExecutionTree

/-- the lines on an instance of a tree without its children -/
def headLines (levels : Nat) (workflowId instanceId : String) (status : InstanceStatus) (seconds : Float)
    (hasError : Bool) (error : Option String) : List String :=
  (margin levels ++ (if hasError then "❌" else "•") ++ " " ++ workflowId ++ " [" ++ instanceId ++ "] " ++
    status.name ++ " " ++ Number.oneDecimal seconds ++ "s") ::
    optionalLine (margin levels ++ "    ") error

mutual
/-- an instance and its descendants -/
def lines (levels : Nat) : ExecutionTree → List String
  | .node id workflowId status _ _ _ seconds hasError error cs =>
    headLines levels workflowId id status seconds hasError error ++ linesOfAll (levels + 1) cs

def linesOfAll (levels : Nat) : List ExecutionTree → List String
  | [] => []
  | t :: ts => lines levels t ++ linesOfAll levels ts
end

end ExecutionTree

/-! ### workflows -/

/-- What is wrong with a workflow, and what is unusual. -/
structure DefinitionCheck where
  problems : List String
  warnings : List String
  deriving DecidableEq, Repr

/-- the problem of a node whose kind is unknown -/
def Node.unknownKind? (n : Node) : Option String :=
  match n.kind with
  | .unknown name => some ("node " ++ n.id ++ " has unknown type " ++ name)
  | _ => none

def checkDefinition (d : Definition) : DefinitionCheck where
  problems :=
    (if d.startNode?.isNone then ["no start node"] else []) ++
    (d.danglingEdges.map fun e => "edge " ++ e.id ++ " references a missing node") ++
    d.nodes.filterMap Node.unknownKind?
  warnings :=
    (if d.hasEnd then [] else ["no end node"]) ++
    (if d.unreachable.isEmpty then [] else ["unreachable nodes: " ++ String.intercalate ", " d.unreachable])

/-- the kinds of nodes -/
def nodeKindLines : List String :=
  "📦 Available Node Types:" :: "" :: NodeKind.known.map fun k =>
    "  • " ++ k.name ++ (if k.isRetryable then " (retried on transient errors)" else "")

end Workflows
