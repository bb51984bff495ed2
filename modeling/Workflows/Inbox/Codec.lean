import Workflows.Definition.Codec
import Workflows.Inbox.Basic

/-!
# Stored form of tasks, approvals and events
-/

namespace Workflows
open Decode

def Assignment.encode (a : Assignment) : Json := .str a.name

def Assignment.decode : Decoder Assignment := word (Assignment.all.map fun a => (a.name, a))

def Task.encode (t : Task) : Json :=
  .ofMembers [("id", .str t.id), ("instance_id", .str t.instanceId), ("node_id", .str t.nodeId),
    ("title", .str t.title), ("description", .ofOptionText t.description), ("assignee", .ofOptionText t.assignee),
    ("role", .ofOptionText t.role), ("strategy", t.strategy.encode), ("status", .str t.status),
    ("due_date", .ofOptionInstant t.dueDate), ("created_at", t.createdAt.encode)]

def Task.decode : Decoder Task := fun v => do
  let f ← fields
    (plain ["id", "instance_id", "node_id", "title", "description", "assignee", "role", "strategy", "status",
      "due_date", "created_at"]) v
  return {
    id := ← f.required "id" text
    instanceId := ← f.required "instance_id" text
    nodeId := ← f.required "node_id" text
    title := ← f.required "title" text
    description := ← f.optional "description" text
    assignee := ← f.optional "assignee" text
    role := ← f.optional "role" text
    strategy := ← f.required "strategy" Assignment.decode
    status := ← f.required "status" text
    dueDate := ← f.optional "due_date" Instant.decode
    createdAt := ← f.required "created_at" Instant.decode }

def ApprovalDecision.encode (d : ApprovalDecision) : Json :=
  .ofMembers [("approver", .str d.approver), ("decision", .str d.decision), ("comment", .ofOptionText d.comment),
    ("decided_at", d.decidedAt.encode)]

def ApprovalDecision.decode : Decoder ApprovalDecision := fun v => do
  let f ← fields (plain ["approver", "decision", "comment", "decided_at"]) v
  return {
    approver := ← f.required "approver" text
    decision := ← f.required "decision" text
    comment := ← f.optional "comment" text
    decidedAt := ← f.required "decided_at" Instant.decode }

def Approval.encode (a : Approval) : Json :=
  .ofMembers [("id", .str a.id), ("instance_id", .str a.instanceId), ("node_id", .str a.nodeId),
    ("title", .str a.title), ("approvers", .ofList .str a.approvers), ("approval_type", .str a.approvalType),
    ("decisions", .ofList ApprovalDecision.encode a.decisions), ("status", .str a.status),
    ("created_at", a.createdAt.encode)]

def Approval.decode : Decoder Approval := fun v => do
  let f ← fields
    (plain ["id", "instance_id", "node_id", "title", "approvers", "approval_type", "decisions", "status",
      "created_at"]) v
  return {
    id := ← f.required "id" text
    instanceId := ← f.required "instance_id" text
    nodeId := ← f.required "node_id" text
    title := ← f.required "title" text
    approvers := ← f.required "approvers" (list text)
    approvalType := ← f.required "approval_type" text
    decisions := ← f.required "decisions" (list ApprovalDecision.decode)
    status := ← f.required "status" text
    createdAt := ← f.required "created_at" Instant.decode }

def EmittedEvent.encode (e : EmittedEvent) : Json :=
  .ofMembers [("id", .str e.id), ("name", .str e.name), ("instance_id", .str e.instanceId),
    ("node_id", .str e.nodeId), ("payload", e.payload), ("created_at", e.createdAt.encode)]

def EmittedEvent.decode : Decoder EmittedEvent := fun v => do
  let f ← fields (plain ["id", "name", "instance_id", "node_id", "payload", "created_at"]) v
  return {
    id := ← f.required "id" text
    name := ← f.required "name" text
    instanceId := ← f.required "instance_id" text
    nodeId := ← f.required "node_id" text
    payload := ← f.required "payload" value
    createdAt := ← f.required "created_at" Instant.decode }

end Workflows
