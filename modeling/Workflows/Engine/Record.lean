import Workflows.Definition.Graph
import Workflows.Failure
import Workflows.World

/-!
# Writing instances

* `Instance.record`: an instance with one more log entry
* `Engine.persist`: write the record of an instance
* `Engine.persistStatus`: write it and announce its state
* `Engine.failInstance`: write it as failed
-/

namespace Workflows

/-- The instance after a run of a node.  A node that is done leaves its output in the variable of its id. -/
def Instance.record (i : Instance) (n : Node) (o : Outcome) (startedAt completedAt : Instant) : Instance :=
  { i with
    log := i.log ++ [⟨n.id, n.kind.name, o.status, startedAt, completedAt, o.error, o.output, o.retries⟩]
    nodeStatuses := Dict.insert i.nodeStatuses n.id o.status
    vars := match o.output with
      | some v => if o.status.isDone then Dict.insert i.vars n.id v else i.vars
      | none => i.vars }

/-- what an observer sees of an outcome -/
def Outcome.happening (o : Outcome) (nodeId : String) : Happening :=
  match o.status, o.wait with
  | .waiting, some w => .nodeWaiting nodeId w
  | .failed, _ => .nodeFailed nodeId (o.error.getD "")
  | _, _ => .nodeCompleted nodeId 0

/-- an action that the state of an instance does not allow -/
def Instance.refuse (i : Instance) (action : String) : EngineError :=
  .workflow (.invalidTransition i.id action i.status.name)

namespace Engine
variable (env : Env)

/-- Write the record of an instance; the answer is the record with its new version.  A write that the store refuses
is noted. -/
def persist (i : Instance) : Run EngineError Instance := do
  let now ← env.now
  let w ← get
  match w.store.updateInstance { i with updatedAt := now } with
  | .ok (store, stored) => do
    set { w with store := store }
    return stored
  | .error e => do
    World.noteRefusal e
    throw (.storage e)

/-- write the record of an instance and announce its state -/
def persistStatus (i : Instance) : Run EngineError Instance := do
  let i ← persist env i
  env.emit i.id (.statusChanged i.status i.error)
  return i

/-- write an instance in a new state -/
def enterStatus (i : Instance) (status : InstanceStatus) : Run EngineError Instance := do
  let now ← env.now
  persistStatus env (i.setStatus status now)

/-- write an instance as failed -/
def failInstance (i : Instance) (error : String) : Run EngineError Instance := do
  let now ← env.now
  persistStatus env (i.fail error (friendlyMessage error) now)

/-- a stored instance -/
def getInstance (id : String) : Run EngineError Instance := do
  match ← Run.fromStore (·.getInstance? id) with
  | some i => return i
  | none => throw (.workflow (.instanceNotFound id))

/-- a node of a definition -/
def getNode (d : Definition) (id : String) : Run EngineError Node :=
  match d.findNode? id with
  | some n => return n
  | none => throw (.workflow (.nodeNotFound id))

end Engine
end Workflows
