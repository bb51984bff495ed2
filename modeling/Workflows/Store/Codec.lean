import Workflows.Instance.Codec
import Workflows.Inbox.Codec
import Workflows.Store.Basic

/-!
# Stored form of a store
-/

namespace Workflows
open Decode

def Snapshot.encode (s : Snapshot) : Json :=
  .ofMembers [("workflows", .ofDict Definition.encode s.workflows),
    ("versions", .ofDict (.ofList Version.encode) s.versions), ("instances", .ofDict Instance.encode s.instances),
    ("links", .ofDict ChildLink.encode s.links), ("tasks", .ofList Task.encode s.tasks),
    ("approvals", .ofList Approval.encode s.approvals), ("events", .ofList EmittedEvent.encode s.events),
    ("roles", .ofDict .ofStrings s.roles), ("workloads", .ofDict .ofNat s.workloads),
    ("collections", .ofDict .arr s.collections)]

def Snapshot.decode : Decoder Snapshot := fun v => do
  let f ← fields
    (plain ["workflows", "versions", "instances", "links", "tasks", "approvals", "events", "roles", "workloads",
      "collections"]) v
  return {
    workflows := ← f.required "workflows" (dict Definition.decode)
    versions := ← f.required "versions" (dict (list Version.decode))
    instances := ← f.required "instances" (dict Instance.decode)
    links := ← f.required "links" (dict ChildLink.decode)
    tasks := ← f.required "tasks" (list Task.decode)
    approvals := ← f.required "approvals" (list Approval.decode)
    events := ← f.required "events" (list EmittedEvent.decode)
    roles := ← f.required "roles" (dict (list text))
    workloads := ← f.required "workloads" (dict (natural 64))
    collections := ← f.required "collections" (dict (list value)) }

end Workflows
