import Workflows.Engine.Walk
import Workflows.Subprocess.Tree

/-!
# The engine

The operations on instances.  Each holds the lock of its instance while it reads and changes it; the parent of an
instance that has ended is told after the lock is released.

* `start`: a new instance, run until it waits or ends
* `resume`, `pause`, `cancel`: operations on a stored instance
* `stepNode`: one node, without what follows it
* `settle`: what a finished child does to the parent that waits for it
* `executionTree`: an instance and its descendants
-/

namespace Workflows.Engine
variable (env : Env)

/-! ### starting -/

/-- the definition that a request selects, and the label that its instance keeps -/
def requested? (s : Store) (r : StartRequest) : Option (Definition × Option String) :=
  match r.workflowVersion with
  | some token => s.resolvePinned? r.workflowId token
  | none => (s.getWorkflow? r.workflowId).map (·, none)

/-- the instance of a request -/
def newInstance (r : StartRequest) (d : Definition) (pinned : Option String) (id : String) (now : Instant) :
    Instance :=
  { Instance.create id d.id r.triggeredBy r.inputs now with
    workflowVersion := pinned
    parentId := r.parentId
    nestingLevel := r.nestingLevel }

/-- start an instance whose own children are started by a launcher -/
def startWith (launcher : Launcher) (r : StartRequest) : Run EngineError String := do
  if env.settings.maxNestingLevel < r.nestingLevel then
    throw (.node (.nestingLimit r.nestingLevel env.settings.maxNestingLevel))
  else match ← Run.fromStore fun s => requested? s r with
    | none => throw (.workflow (.notFound r.workflowId))
    | some (d, pinned) => do
      let id ← env.freshId
      World.tick
      let i := newInstance r d pinned id (← env.now)
      let _ ← Run.locked id do
        World.changeStore (·.insertInstance i)
        env.emit id (.instanceStarted d.id r.nestingLevel)
        match d.startNode? with
        | some n => walkFrom env launcher d [n.id] i
        | none => failInstance env i ("Workflow " ++ d.id ++ " has no start node")
      return id

/-- start an instance that has room for `levels` levels, its own included -/
def startWithin : (levels : Nat) → Launcher
  | 0 => fun r => throw (.node (.nestingLimit r.nestingLevel env.settings.maxNestingLevel))
  | levels + 1 => startWith env (startWithin levels)

/-- Start an instance and run it until it waits or ends.  Its id is new, so no parent can wait for it yet. -/
def start (r : StartRequest) : Run EngineError String :=
  startWithin env (env.settings.maxNestingLevel + 1 - r.nestingLevel) r

/-! ### resuming -/

/-- the definition of an instance -/
def definitionOf? (s : Store) (i : Instance) : Option Definition :=
  match i.workflowVersion with
  | some label => s.resolve? i.workflowId label
  | none => s.getWorkflow? i.workflowId

def definitionFor (i : Instance) : Run EngineError Definition := do
  match ← Run.fromStore fun s => definitionOf? s i with
  | some d => return d
  | none => throw (.workflow (.notFound i.workflowId))

/-- the route in the data of a resumption -/
def routeOf (data : Json) : Option String := (data.member? "route" <|> data.member? "decision").bind Json.str?

/-- go on behind a node that is done -/
def continueAfter (d : Definition) (i : Instance) (n : Node) (nodeId : String) (route : Option String) :
    Run EngineError Instance := do
  let now ← env.now
  let i := i.setStatus .running now
  let i ← persistStatus env { i with nodeStatuses := Dict.insert i.nodeStatuses nodeId .completed }
  walkFrom env (start env) d (d.nextNodes n route) i

/-- the instance with the data of a resumption in the variable of a node -/
def withData (i : Instance) (nodeId : String) : Option Json → Instance
  | some data => { i with vars := Dict.insert i.vars nodeId data }
  | none => i

/-! ### parents -/

/-- whether an instance stands still until another is reported -/
def isParkedOn (parentId childId : String) : Run EngineError Bool :=
  Run.fromStore fun s => match s.getInstance? parentId with
    | some parent => parent.isParkedOn childId
    | none => false

/-- The parent after its child has finished.  A waiting parent goes on; a paused one only notes the outcome. -/
def wakeParent (link : ChildLink) (child : Instance) : Run EngineError Instance := do
  let parent ← getInstance link.parentId
  let d ← definitionFor parent
  let n ← getNode d link.parentNodeId
  match ← applyChild env parent n child link with
  | .stopped parent => return parent
  | .goesOn parent =>
    if parent.status = .paused then persist env { parent with waitingFor := none }
    else continueAfter env d parent n link.parentNodeId none

/-- The parent that waits for an instance is told that it has ended, and so on upward.  Every parent that goes on
upward has ended itself, so there are at most as many as instances. -/
def settle : (fuel : Nat) → Instance → Run EngineError Unit
  | 0, _ => return ()
  | fuel + 1, child => do
    if child.status.isTerminal && child.parentId.isSome then
      match ← Run.fromStore fun s => s.getLink? child.id with
      | none => return ()
      | some link => do
        if ← isParkedOn link.parentId child.id then
          let parent ← Run.locked link.parentId do
            -- the parent may have gone on before its lock was free
            if ← isParkedOn link.parentId child.id then return some (← wakeParent env link child)
            else return none
          match parent with
          | some parent => settle fuel parent
          | none => return ()
        else return ()
    else return ()

/-- tell the parents of an instance -/
def finish (i : Instance) : Run EngineError Unit := do
  let count ← Run.fromStore fun s => s.instances.length
  settle env (count + 1) i

/-! ### operations on a stored instance -/

/-- Continue an instance behind a node.  The node is not run again; the data become the variable of its id. -/
def resume (id nodeId : String) (data : Option Json) : Run EngineError Unit := do
  let i ← Run.locked id do
    let i ← getInstance id
    if i.status.isParked then
      let d ← definitionFor i
      let n ← getNode d nodeId
      continueAfter env d (withData i nodeId data) n nodeId (data.bind routeOf)
    else throw (i.refuse "resume")
  finish env i

/-- Hold an instance.  It keeps what it waits for, so that an outcome can still be reported to it. -/
def pause (id : String) : Run EngineError Unit :=
  Run.locked id do
    let i ← getInstance id
    if i.status.isTerminal then throw (i.refuse "pause")
    else if i.status = .paused then return ()
    else
      let now ← env.now
      let _ ← persistStatus env { i.setStatus .paused now with waitingFor := i.waitingFor }
      return ()

def cancel (id : String) : Run EngineError Unit := do
  let i ← Run.locked id do
    let i ← getInstance id
    if i.status.isTerminal then throw (i.refuse "cancel")
    else enterStatus env i .cancelled
  finish env i

/-- What a single step did. -/
structure StepReport where
  outcome : Outcome
  nextNodes : List String
  vars : Vars

/-- Run one node, once and without what follows it.  The state of the instance does not change. -/
def stepNode (id nodeId : String) : Run EngineError StepReport :=
  Run.locked id do
    let i ← getInstance id
    let d ← definitionFor i
    let n ← getNode d nodeId
    let startedAt ← env.now
    let i := { i with currentNodeId := some n.id }
    let (o, vars) ← inSession env i.vars (n.attempt (contextOf env (start env) i))
    let completedAt ← env.now
    let i ← persist env ({ i with vars := vars }.record n o startedAt completedAt)
    return ⟨o, if o.status.isDone then d.nextNodes n o.route else [], i.vars⟩

/-- an instance and its descendants down to some depth -/
def executionTree (id : String) (depth : Nat) : Run EngineError ExecutionTree := do
  let now ← env.now
  match ← Run.fromStore fun s => s.executionTree? now id depth with
  | some t => return t
  | none => throw (.workflow (.instanceNotFound id))

def StepReport.encode (r : StepReport) : Json :=
  .ofMembers [("result", r.outcome.encode), ("next_node_ids", .ofStrings r.nextNodes),
    ("variables", .obj r.vars)]

end Workflows.Engine
