import Workflows.Instance.Codec
import Workflows.Event.Basic

/-!
# Written form of events

An event is a record whose field `type` names what happened.
-/

namespace Workflows
open Decode

def NodeMessage.encode : NodeMessage → Json
  | .info m => .ofMembers [("event_type", .str "Info"), ("message", .str m)]
  | .warning m => .ofMembers [("event_type", .str "Warning"), ("message", .str m)]

def NodeMessage.decode : Decoder NodeMessage := fun v => do
  let (tag, rest) ← tagged "event_type" v
  let f ← fields (plain ["message"]) rest
  let message ← f.required "message" text
  match tag with
  | "Info" => some (.info message)
  | "Warning" => some (.warning message)
  | _ => none

/-- the name of what happened and its own fields -/
def Happening.parts : Happening → String × List (String × Json)
  | .instanceStarted workflowId level =>
    ("InstanceStarted", [("workflow_id", .str workflowId), ("nesting_level", .ofNat level)])
  | .statusChanged status error =>
    ("InstanceStatusChanged", [("status", status.encode), ("error", .ofOptionText error)])
  | .nodeStarted nodeId nodeType => ("NodeStarted", [("node_id", .str nodeId), ("node_type", .str nodeType)])
  | .nodeCompleted nodeId millis => ("NodeCompleted", [("node_id", .str nodeId), ("duration_ms", .ofNat millis)])
  | .nodeWaiting nodeId wait => ("NodeWaiting", [("node_id", .str nodeId), ("wait", wait.encode)])
  | .nodeFailed nodeId error => ("NodeFailed", [("node_id", .str nodeId), ("error", .str error)])
  | .nodeRetrying nodeId attempt error =>
    ("NodeRetrying", [("node_id", .str nodeId), ("attempt", .ofNat attempt), ("error", .str error)])
  | .nodeMessage nodeId message => ("NodeEvent", [("node_id", .str nodeId), ("event", message.encode)])

def Event.encode (e : Event) : Json :=
  let (name, own) := e.happening.parts
  .ofMembers ([("type", .str name), ("instance_id", .str e.instanceId), ("timestamp", e.time.encode)] ++ own)

/-- the own fields of the happening with a name, in their order -/
def Happening.fieldsOf? : String → Option (List String)
  | "InstanceStarted" => some ["workflow_id", "nesting_level"]
  | "InstanceStatusChanged" => some ["status", "error"]
  | "NodeStarted" => some ["node_id", "node_type"]
  | "NodeCompleted" => some ["node_id", "duration_ms"]
  | "NodeWaiting" => some ["node_id", "wait"]
  | "NodeFailed" => some ["node_id", "error"]
  | "NodeRetrying" => some ["node_id", "attempt", "error"]
  | "NodeEvent" => some ["node_id", "event"]
  | _ => none

/-- the happening with a name, from its own fields -/
def Happening.ofFields? (name : String) (f : Fields) : Option Happening := do
  match name with
  | "InstanceStarted" =>
    return .instanceStarted (← f.required "workflow_id" text) (← f.required "nesting_level" (natural 32))
  | "InstanceStatusChanged" =>
    return .statusChanged (← f.required "status" InstanceStatus.decode) (← f.optional "error" text)
  | "NodeStarted" => return .nodeStarted (← f.required "node_id" text) (← f.required "node_type" text)
  | "NodeCompleted" => return .nodeCompleted (← f.required "node_id" text) (← f.required "duration_ms" (natural 64))
  | "NodeWaiting" => return .nodeWaiting (← f.required "node_id" text) (← f.required "wait" Wait.decode)
  | "NodeFailed" => return .nodeFailed (← f.required "node_id" text) (← f.required "error" text)
  | "NodeRetrying" =>
    return .nodeRetrying (← f.required "node_id" text) (← f.required "attempt" (natural 32))
      (← f.required "error" text)
  | "NodeEvent" => return .nodeMessage (← f.required "node_id" text) (← f.required "event" NodeMessage.decode)
  | _ => none

def Event.decode : Decoder Event := fun v => do
  let (name, rest) ← tagged "type" v
  let own ← Happening.fieldsOf? name
  let f ← fields (plain ("instance_id" :: own ++ ["timestamp"])) rest
  return {
    instanceId := ← f.required "instance_id" text
    happening := ← Happening.ofFields? name f
    time := ← f.required "timestamp" Instant.decode }

end Workflows
