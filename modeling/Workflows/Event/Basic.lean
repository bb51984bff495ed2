import Workflows.Instance.Basic

/-!
# Execution events

What an observer sees of a run: instances start and change their state, and nodes start, end, wait, fail, are tried
again, and send messages.
-/

namespace Workflows

/-- A message that a node sends while it runs. -/
inductive NodeMessage where
  | info (message : String)
  | warning (message : String)
  deriving DecidableEq, Repr

/-- What happened. -/
inductive Happening where
  | instanceStarted (workflowId : String) (nestingLevel : Nat)
  | statusChanged (status : InstanceStatus) (error : Option String)
  | nodeStarted (nodeId nodeType : String)
  | nodeCompleted (nodeId : String) (millis : Nat)
  | nodeWaiting (nodeId : String) (wait : Wait)
  | nodeFailed (nodeId error : String)
  | nodeRetrying (nodeId : String) (attempt : Nat) (error : String)
  | nodeMessage (nodeId : String) (message : NodeMessage)
  deriving DecidableEq

/-- An event of an instance. -/
structure Event where
  instanceId : String
  happening : Happening
  time : Instant
  deriving DecidableEq

end Workflows
