import Workflows.Time.Instant
import Workflows.Json.Basic

/-!
# Work for people and listeners

What nodes leave in the store for others: tasks, approvals and emitted events.
-/

namespace Workflows

/-- How the assignee of a task is chosen. -/
inductive Assignment where
  | direct
  /-- left to the members of a role -/
  | role
  /-- the members of a role in turn -/
  | roundRobin
  /-- the member of a role with the least work -/
  | loadBalanced
  deriving DecidableEq, Repr

namespace Assignment

def name : Assignment → String
  | .direct => "direct"
  | .role => "role"
  | .roundRobin => "round_robin"
  | .loadBalanced => "load_balanced"

def all : List Assignment := [.direct, .role, .roundRobin, .loadBalanced]

end Assignment

/-- Work for a person. -/
structure Task where
  id : String
  instanceId : String
  nodeId : String
  title : String
  description : Option String
  assignee : Option String
  role : Option String
  strategy : Assignment
  status : String
  dueDate : Option Instant
  createdAt : Instant
  deriving DecidableEq

/-- The decision of one approver. -/
structure ApprovalDecision where
  approver : String
  decision : String
  comment : Option String
  decidedAt : Instant
  deriving DecidableEq

/-- A question to approvers. -/
structure Approval where
  id : String
  instanceId : String
  nodeId : String
  title : String
  approvers : List String
  /-- how many have to agree: `any`, `all` or `majority` -/
  approvalType : String
  decisions : List ApprovalDecision
  status : String
  createdAt : Instant
  deriving DecidableEq

/-- An event that a node has emitted. -/
structure EmittedEvent where
  id : String
  name : String
  instanceId : String
  nodeId : String
  payload : Json
  createdAt : Instant
  deriving DecidableEq

end Workflows
