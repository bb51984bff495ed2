import Workflows.Definition.Codec
import Workflows.Instance.Basic

/-!
# Stored form of instances

Each type of an instance is read from a value and written back with all its fields.
-/

namespace Workflows
open Decode

def NodeStatus.encode (s : NodeStatus) : Json := .str s.name

def NodeStatus.decode : Decoder NodeStatus := word (NodeStatus.all.map fun s => (s.name, s))

def WaitKind.encode (k : WaitKind) : Json := .str k.name

def WaitKind.decode : Decoder WaitKind := word (WaitKind.all.map fun k => (k.name, k))

def InstanceStatus.encode (s : InstanceStatus) : Json := .str s.name

def InstanceStatus.decode : Decoder InstanceStatus := word (InstanceStatus.all.map fun s => (s.name, s))

def Wait.encode (w : Wait) : Json :=
  .ofMembers [("kind", w.kind.encode), ("id", .str w.id), ("deadline", .ofOptionInstant w.deadline)]

def Wait.decode : Decoder Wait := fun v => do
  let f ← fields (plain ["kind", "id", "deadline"]) v
  return {
    kind := ← f.required "kind" WaitKind.decode
    id := ← f.required "id" text
    deadline := ← f.orNone "deadline" Instant.decode }

def Outcome.encode (o : Outcome) : Json :=
  .ofMembers [("status", o.status.encode), ("output", .ofOption id o.output), ("route", .ofOptionText o.route),
    ("wait", .ofOption Wait.encode o.wait), ("error", .ofOptionText o.error), ("retry_count", .ofNat o.retries)]

def Outcome.decode : Decoder Outcome := fun v => do
  let f ← fields (plain ["status", "output", "route", "wait", "error", "retry_count"]) v
  return {
    status := ← f.required "status" NodeStatus.decode
    output := ← f.optional "output" value
    route := ← f.optional "route" text
    wait := ← f.optional "wait" Wait.decode
    error := ← f.optional "error" text
    retries := ← f.required "retry_count" (natural 32) }

def LogEntry.encode (e : LogEntry) : Json :=
  .ofMembers [("node_id", .str e.nodeId), ("node_type", .str e.nodeType), ("status", e.status.encode),
    ("started_at", e.startedAt.encode), ("completed_at", e.completedAt.encode), ("error", .ofOptionText e.error),
    ("output", .ofOption id e.output), ("retry_count", .ofNat e.retries)]

def LogEntry.decode : Decoder LogEntry := fun v => do
  let f ← fields
    (plain ["node_id", "node_type", "status", "started_at", "completed_at", "error", "output", "retry_count"]) v
  return {
    nodeId := ← f.required "node_id" text
    nodeType := ← f.required "node_type" text
    status := ← f.required "status" NodeStatus.decode
    startedAt := ← f.required "started_at" Instant.decode
    completedAt := ← f.required "completed_at" Instant.decode
    error := ← f.optional "error" text
    output := ← f.orNone "output" value
    retries := ← f.withDefault "retry_count" (natural 32) 0 }

def ChildEntry.encode (c : ChildEntry) : Json :=
  .ofMembers [("instance_id", .str c.instanceId), ("workflow_id", .str c.workflowId), ("node_id", .str c.nodeId),
    ("status", c.status.encode), ("completed_at", .ofOptionInstant c.completedAt)]

def ChildEntry.decode : Decoder ChildEntry := fun v => do
  let f ← fields (plain ["instance_id", "workflow_id", "node_id", "status", "completed_at"]) v
  return {
    instanceId := ← f.required "instance_id" text
    workflowId := ← f.required "workflow_id" text
    nodeId := ← f.required "node_id" text
    status := ← f.required "status" InstanceStatus.decode
    completedAt := ← f.optional "completed_at" Instant.decode }

def Instance.encode (i : Instance) : Json :=
  .ofMembers [("id", .str i.id), ("workflow_id", .str i.workflowId),
    ("workflow_version", .ofOptionText i.workflowVersion), ("status", i.status.encode),
    ("current_node_id", .ofOptionText i.currentNodeId), ("variables", .obj i.vars),
    ("execution_log", .ofList LogEntry.encode i.log), ("node_statuses", .ofDict NodeStatus.encode i.nodeStatuses),
    ("waiting_for", .ofOption Wait.encode i.waitingFor), ("error", .ofOptionText i.error),
    ("friendly_error", .ofOptionText i.friendlyError), ("triggered_by", .str i.triggeredBy),
    ("parent_instance_id", .ofOptionText i.parentId), ("nesting_level", .ofNat i.nestingLevel),
    ("children", .ofList ChildEntry.encode i.children), ("started_at", i.startedAt.encode),
    ("updated_at", i.updatedAt.encode), ("completed_at", .ofOptionInstant i.completedAt),
    ("version", .ofNat i.version)]

def Instance.decode : Decoder Instance := fun v => do
  let f ← fields
    (plain ["id", "workflow_id", "workflow_version", "status", "current_node_id", "variables", "execution_log",
      "node_statuses", "waiting_for", "error", "friendly_error", "triggered_by", "parent_instance_id",
      "nesting_level", "children", "started_at", "updated_at", "completed_at", "version"]) v
  return {
    id := ← f.required "id" text
    workflowId := ← f.required "workflow_id" text
    workflowVersion := ← f.orNone "workflow_version" text
    status := ← f.required "status" InstanceStatus.decode
    currentNodeId := ← f.optional "current_node_id" text
    vars := ← f.required "variables" object
    log := ← f.required "execution_log" (list LogEntry.decode)
    nodeStatuses := ← f.required "node_statuses" (dict NodeStatus.decode)
    waitingFor := ← f.optional "waiting_for" Wait.decode
    error := ← f.optional "error" text
    friendlyError := ← f.optional "friendly_error" text
    triggeredBy := ← f.required "triggered_by" text
    parentId := ← f.optional "parent_instance_id" text
    nestingLevel := ← f.required "nesting_level" (natural 32)
    children := ← f.required "children" (list ChildEntry.decode)
    startedAt := ← f.required "started_at" Instant.decode
    updatedAt := ← f.required "updated_at" Instant.decode
    completedAt := ← f.optional "completed_at" Instant.decode
    version := ← f.withDefault "version" (natural 64) 0 }

def ChildLink.encode (l : ChildLink) : Json :=
  .ofMembers [("parent_instance_id", .str l.parentId), ("parent_node_id", .str l.parentNodeId),
    ("child_instance_id", .str l.childId), ("output_mapping", .ofDict .str l.outputMapping),
    ("isolated", .bool l.isolated), ("nesting_level", .ofNat l.nestingLevel), ("created_at", l.createdAt.encode)]

def ChildLink.decode : Decoder ChildLink := fun v => do
  let f ← fields
    (plain ["parent_instance_id", "parent_node_id", "child_instance_id", "output_mapping", "isolated",
      "nesting_level", "created_at"]) v
  return {
    parentId := ← f.required "parent_instance_id" text
    parentNodeId := ← f.required "parent_node_id" text
    childId := ← f.required "child_instance_id" text
    outputMapping := ← f.required "output_mapping" (dict text)
    isolated := ← f.required "isolated" bool
    nestingLevel := ← f.required "nesting_level" (natural 32)
    createdAt := ← f.required "created_at" Instant.decode }

def StartRequest.encode (r : StartRequest) : Json :=
  .ofMembers [("workflow_id", .str r.workflowId), ("triggered_by", .str r.triggeredBy), ("inputs", .obj r.inputs),
    ("parent_instance_id", .ofOptionText r.parentId), ("nesting_level", .ofNat r.nestingLevel),
    ("workflow_version", .ofOptionText r.workflowVersion)]

def StartRequest.decode : Decoder StartRequest := fun v => do
  let f ← fields
    (plain ["workflow_id", "triggered_by", "inputs", "parent_instance_id", "nesting_level", "workflow_version"]) v
  return {
    workflowId := ← f.required "workflow_id" text
    triggeredBy := ← f.required "triggered_by" text
    inputs := ← f.required "inputs" object
    parentId := ← f.optional "parent_instance_id" text
    nestingLevel := ← f.required "nesting_level" (natural 32)
    workflowVersion := ← f.optional "workflow_version" text }

end Workflows
