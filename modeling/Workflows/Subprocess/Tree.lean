import Workflows.Instance.Codec
import Workflows.Json.Printer
import Workflows.Store.Basic

/-!
# Execution trees

An instance with its children, their children, and so on.

* `ExecutionTree`: a tree
* `Store.executionTree?`: the tree of an instance, down to some depth
-/

namespace Workflows

/-- An instance and the trees of its children. -/
inductive ExecutionTree where
  | node (instanceId workflowId : String) (status : InstanceStatus) (nestingLevel : Nat)
    (startedAt : Instant) (completedAt : Option Instant) (durationSeconds : Float)
    (hasError : Bool) (error : Option String) (children : List ExecutionTree)

namespace ExecutionTree

/-- the seconds from the start of an instance to its end, or to now -/
def duration (i : Instance) (now : Instant) : Float :=
  Float.ofInt (Instant.millisBetween i.startedAt (i.completedAt.getD now)) / 1000.0

def ofInstance (i : Instance) (now : Instant) (children : List ExecutionTree) : ExecutionTree :=
  .node i.id i.workflowId i.status i.nestingLevel i.startedAt i.completedAt (duration i now)
    (i.status = .failed) i.error children

def children : ExecutionTree → List ExecutionTree
  | .node _ _ _ _ _ _ _ _ _ cs => cs

def instanceId : ExecutionTree → String
  | .node id _ _ _ _ _ _ _ _ _ => id

mutual
def encode : ExecutionTree → Json
  | .node id workflowId status level startedAt completedAt seconds hasError error cs =>
    .ofMembers [("instance_id", .str id), ("workflow_id", .str workflowId), ("status", status.encode),
      ("nesting_level", .ofNat level), ("started_at", startedAt.encode),
      ("completed_at", .ofOptionInstant completedAt), ("duration_seconds", .ofDouble seconds),
      ("has_error", .bool hasError), ("error", .ofOptionText error), ("children", .arr (encodeAll cs))]

def encodeAll : List ExecutionTree → List Json
  | [] => []
  | t :: ts => encode t :: encodeAll ts
end

open Decode

/-- a tree of at most some depth -/
def decodeWithin : Nat → Decoder ExecutionTree
  | 0, _ => none
  | depth + 1, v => do
    let f ← fields
      (plain ["instance_id", "workflow_id", "status", "nesting_level", "started_at", "completed_at",
        "duration_seconds", "has_error", "error", "children"]) v
    return .node (← f.required "instance_id" text) (← f.required "workflow_id" text)
      (← f.required "status" InstanceStatus.decode) (← f.required "nesting_level" (natural 32))
      (← f.required "started_at" Instant.decode) (← f.optional "completed_at" Instant.decode)
      (← f.required "duration_seconds" double) (← f.required "has_error" bool) (← f.optional "error" text)
      (← f.required "children" (list (decodeWithin depth)))

/-- a stored tree; no value is nested as deeply as its text is long -/
def decode : Decoder ExecutionTree := fun v => decodeWithin v.compact.length v

end ExecutionTree

namespace Store

/-- the tree of an instance, its descendants down to `depth` levels below it -/
def treeOf (s : Store) (now : Instant) : Nat → Instance → ExecutionTree
  | 0, i => .ofInstance i now []
  | depth + 1, i => .ofInstance i now ((s.childrenOf i.id).map (treeOf s now depth))

def executionTree? (s : Store) (now : Instant) (id : String) (depth : Nat) : Option ExecutionTree :=
  (s.getInstance? id).map (s.treeOf now depth)

end Store
end Workflows
