import Workflows.Failure
import Workflows.Node.Execute

/-!
# Attempts

A node of a retryable kind is run again while it fails for a transient reason.

* `retrying`: an attempt with a number of further attempts
* `Node.attempt`: one attempt, without open loops
* `Node.runWithRetries`: a node with the attempts that its kind and the settings allow
-/

namespace Workflows

/-- the error of a failure that may pass -/
def Outcome.transientError? (o : Outcome) : Option String :=
  if o.isFailed then o.error.filter isTransient else none

/-- An attempt, made again up to `left` times while it fails for a transient reason.  Each repetition is noted under
its number, which goes on from `retries`. -/
def retrying (attempt : StateM σ Outcome) (note : Nat → String → StateM σ Unit) :
    (left retries : Nat) → StateM σ Outcome
  | 0, retries => do
    let o ← attempt
    return { o with retries := retries }
  | left + 1, retries => do
    let o ← attempt
    match o.transientError? with
    | some error => do
      note (retries + 1) error
      retrying attempt note left (retries + 1)
    | none => return { o with retries := retries }

namespace Node

/-- how often a node is run again at most -/
def retriesOf (s : Settings) (n : Node) : Nat := if n.kind.isRetryable then s.maxAttempts - 1 else 0

/-- one attempt; it begins without open loops -/
def attempt (c : NodeContext) (n : Node) : StateM Session Outcome := do
  modify fun s => { s with loops := { maxDepth := c.env.settings.maxLoopDepth } }
  n.execute c

/-- announce another attempt -/
def noteRetry (c : NodeContext) (n : Node) (number : Nat) (error : String) : StateM Session Unit := do
  let s ← get
  let ((), world) := (c.env.emit c.instanceId (.nodeRetrying n.id number error)).run s.world
  set { s with world := world }

def runWithRetries (c : NodeContext) (n : Node) : StateM Session Outcome :=
  retrying (n.attempt c) (n.noteRetry c) (n.retriesOf c.env.settings) 0

end Node
end Workflows
