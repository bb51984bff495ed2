/-!
# Errors

The causes why an operation or a node fails, and the one place that words them.

* `StorageError`: a store refuses an operation
* `NodeError`: a node cannot be run
* `WorkflowError`: an operation does not apply to a workflow or an instance
* `EngineError`: an operation of the engine fails
-/

namespace Workflows

/-- Why a store refuses an operation. -/
inductive StorageError where
  | notFound (id : String)
  /-- the stored version is not the one that the writer has read -/
  | conflict (id : String) (expected found : Nat)
  | backend (reason : String)
  deriving DecidableEq, Repr

/-- Why a node cannot be run. -/
inductive NodeError where
  | configuration (reason : String)
  | executionFailed (reason : String)
  | unknownNodeType (name : String)
  | nestingLimit (level max : Nat)
  | loopDepthExceeded (max : Nat)
  | timeout (seconds : Nat)
  | storage (e : StorageError)
  deriving DecidableEq, Repr

/-- Why an operation does not apply. -/
inductive WorkflowError where
  | notFound (id : String)
  | instanceNotFound (id : String)
  | invalid (reason : String)
  | nodeNotFound (id : String)
  | invalidTransition (id action status : String)
  deriving DecidableEq, Repr

/-- Why an operation of the engine fails. -/
inductive EngineError where
  | node (e : NodeError)
  | workflow (e : WorkflowError)
  | storage (e : StorageError)
  | settings (reason : String)
  deriving DecidableEq, Repr

def StorageError.message : StorageError → String
  | .notFound id => "Record not found: " ++ id
  | .conflict id expected found =>
    "Version conflict on " ++ id ++ ": expected " ++ toString expected ++ ", found " ++ toString found
  | .backend reason => "Storage backend error: " ++ reason

def NodeError.message : NodeError → String
  | .configuration reason => "Configuration error: " ++ reason
  | .executionFailed reason => reason
  | .unknownNodeType name => "Unknown node type: " ++ name
  | .nestingLimit level max =>
    "Maximum subprocess nesting level (" ++ toString max ++ ") exceeded: requested level " ++ toString level
  | .loopDepthExceeded max => "Maximum loop nesting depth (" ++ toString max ++ ") exceeded"
  | .timeout seconds => "Timeout after " ++ toString seconds ++ "s"
  | .storage e => e.message

def WorkflowError.message : WorkflowError → String
  | .notFound id => "Workflow not found: " ++ id
  | .instanceNotFound id => "Workflow instance not found: " ++ id
  | .invalid reason => "Invalid workflow: " ++ reason
  | .nodeNotFound id => "Node not found: " ++ id
  | .invalidTransition id action status =>
    "Cannot " ++ action ++ " instance " ++ id ++ " in status '" ++ status ++ "'"

def EngineError.message : EngineError → String
  | .node e => "Node error: " ++ e.message
  | .workflow e => "Workflow error: " ++ e.message
  | .storage e => "Storage error: " ++ e.message
  | .settings reason => "Config error: " ++ reason

/-- the messages of the causes behind an error, the nearest first -/
def EngineError.causes : EngineError → List String
  | .node (.storage e) => [(NodeError.storage e).message, e.message]
  | .node e => [e.message]
  | .workflow e => [e.message]
  | .storage e => [e.message]
  | .settings _ => []

end Workflows
