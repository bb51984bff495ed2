import Workflows.Definition.Basic

/-!
# Workflow instances

An instance is one run of a workflow: its variables, the log of the nodes it has run, what it waits for, and how it
ended.  A subprocess node runs another workflow as a child instance; a link joins the two.

* `NodeStatus`, `Wait`, `Outcome`: how a node ends
* `InstanceStatus`, `Instance`: a run
* `LogEntry`, `ChildEntry`: what an instance remembers of its nodes and of its finished children
* `ChildLink`: the connection of a parent and a child
* `StartRequest`: what a new instance is made from
-/

namespace Workflows

/-- How a node ended. -/
inductive NodeStatus where
  | completed | waiting | failed | breakLoop | continueLoop
  deriving DecidableEq, Repr

namespace NodeStatus

def name : NodeStatus → String
  | .completed => "completed"
  | .waiting => "waiting"
  | .failed => "failed"
  | .breakLoop => "break_loop"
  | .continueLoop => "continue_loop"

def all : List NodeStatus := [.completed, .waiting, .failed, .breakLoop, .continueLoop]

/-- the node is done and the walk goes on -/
def isDone : NodeStatus → Bool
  | .completed | .breakLoop | .continueLoop => true
  | _ => false

end NodeStatus

/-- What a waiting node waits for. -/
inductive WaitKind where
  | task | approval | form | screen | timer | event | subprocess
  deriving DecidableEq, Repr

namespace WaitKind

def name : WaitKind → String
  | .task => "task"
  | .approval => "approval"
  | .form => "form"
  | .screen => "screen"
  | .timer => "timer"
  | .event => "event"
  | .subprocess => "subprocess"

def all : List WaitKind := [.task, .approval, .form, .screen, .timer, .event, .subprocess]

/-- the kind in prose -/
def title : WaitKind → String
  | .task => "Task"
  | .approval => "Approval"
  | .form => "Form"
  | .screen => "Screen"
  | .timer => "Timer"
  | .event => "Event"
  | .subprocess => "Subprocess"

end WaitKind

/-- A wait: what is awaited, under which id, and until when. -/
structure Wait where
  kind : WaitKind
  id : String
  deadline : Option Instant
  deriving DecidableEq

/-- The result of running a node. -/
structure Outcome where
  status : NodeStatus
  output : Option Json
  /-- the branch that a branching node has chosen -/
  route : Option String
  wait : Option Wait
  error : Option String
  /-- how often the node was tried again -/
  retries : Nat
  deriving DecidableEq

namespace Outcome

def ofStatus (status : NodeStatus) : Outcome := ⟨status, none, none, none, none, 0⟩

def completed : Outcome := ofStatus .completed

/-- a completed node with an output -/
def done (v : Json) : Outcome := { completed with output := some v }

def waiting (w : Wait) (output : Option Json) : Outcome := { ofStatus .waiting with wait := some w, output }

def failed (error : String) : Outcome := { ofStatus .failed with error := some error }

def isFailed (o : Outcome) : Bool := o.status = .failed

end Outcome

/-- The state of an instance. -/
inductive InstanceStatus where
  | running | waiting | paused | completed | failed | cancelled
  deriving DecidableEq, Repr

namespace InstanceStatus

def name : InstanceStatus → String
  | .running => "running"
  | .waiting => "waiting"
  | .paused => "paused"
  | .completed => "completed"
  | .failed => "failed"
  | .cancelled => "cancelled"

def all : List InstanceStatus := [.running, .waiting, .paused, .completed, .failed, .cancelled]

/-- the instance is over -/
def isTerminal : InstanceStatus → Bool
  | .completed | .failed | .cancelled => true
  | _ => false

/-- the instance stands still and can be resumed -/
def isParked : InstanceStatus → Bool
  | .waiting | .paused => true
  | _ => false

end InstanceStatus

/-- One run of one node. -/
structure LogEntry where
  nodeId : String
  nodeType : String
  status : NodeStatus
  startedAt : Instant
  completedAt : Instant
  error : Option String
  output : Option Json
  retries : Nat
  deriving DecidableEq

/-- A finished child, as its parent remembers it. -/
structure ChildEntry where
  instanceId : String
  workflowId : String
  nodeId : String
  status : InstanceStatus
  completedAt : Option Instant
  deriving DecidableEq

/-- One run of a workflow. -/
structure Instance where
  id : String
  workflowId : String
  /-- the label of the version that is run; none for the live definition -/
  workflowVersion : Option String
  status : InstanceStatus
  currentNodeId : Option String
  vars : Vars
  log : List LogEntry
  nodeStatuses : Dict NodeStatus
  waitingFor : Option Wait
  error : Option String
  friendlyError : Option String
  triggeredBy : String
  parentId : Option String
  nestingLevel : Nat
  children : List ChildEntry
  startedAt : Instant
  updatedAt : Instant
  completedAt : Option Instant
  /-- how often the stored record was written; a writer must have read the latest -/
  version : Nat
  deriving DecidableEq

namespace Instance

/-- a new run that starts at `now` -/
def create (id workflowId triggeredBy : String) (vars : Vars) (now : Instant) : Instance where
  id := id
  workflowId := workflowId
  workflowVersion := none
  status := .running
  currentNodeId := none
  vars := vars
  log := []
  nodeStatuses := []
  waitingFor := none
  error := none
  friendlyError := none
  triggeredBy := triggeredBy
  parentId := none
  nestingLevel := 0
  children := []
  startedAt := now
  updatedAt := now
  completedAt := none
  version := 0

/-- the instance in a new state; only a waiting instance keeps what it waits for -/
def setStatus (i : Instance) (status : InstanceStatus) (now : Instant) : Instance :=
  { i with
    status := status
    updatedAt := now
    completedAt := if status.isTerminal then some now else i.completedAt
    waitingFor := if status = .waiting then i.waitingFor else none }

/-- the failed instance -/
def fail (i : Instance) (error friendly : String) (now : Instant) : Instance :=
  { i with error := some error, friendlyError := some friendly }.setStatus .failed now

/-- whether the instance stands still until `id` is reported -/
def isParkedOn (i : Instance) (id : String) : Bool :=
  i.status.isParked && (match i.waitingFor with
    | some w => w.id = id
    | none => false)

end Instance

/-- The connection of a parent and the child that one of its nodes has started. -/
structure ChildLink where
  parentId : String
  parentNodeId : String
  childId : String
  /-- variables of the parent by variables of the child -/
  outputMapping : Dict String
  isolated : Bool
  nestingLevel : Nat
  createdAt : Instant
  deriving DecidableEq

/-- What a new instance is made from. -/
structure StartRequest where
  workflowId : String
  triggeredBy : String
  inputs : Vars
  parentId : Option String
  nestingLevel : Nat
  /-- the label of a version, or a word that selects one; none for the live definition -/
  workflowVersion : Option String
  deriving DecidableEq

/-- a request at the top level without inputs -/
def StartRequest.of (workflowId : String) : StartRequest := ⟨workflowId, "system", [], none, 0, none⟩

end Workflows
