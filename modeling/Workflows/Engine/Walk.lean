import Workflows.Definition.Routing
import Workflows.Engine.Attempt
import Workflows.Engine.Record

/-!
# Walks

A walk runs nodes of a definition from a list of pending ids, the next one first.  The targets of a node go in front
of the ids that are pending, so a branch is run to its end before the next one begins.  The walk stops where a node
waits or fails, where an id is no node, and after a fixed number of nodes.

* `runNode`: one node, recorded in its instance
* `applyChild`: the outcome of a finished child, taken over by its parent
* `reconcile`: a child that has finished before its parent could wait for it
* `walk`: the walk
-/

namespace Workflows.Engine
variable (env : Env) (launcher : Launcher)

def contextOf (i : Instance) : NodeContext := ⟨env, i.id, i.nestingLevel, some launcher⟩

/-- a node in a session that begins with the variables of an instance; the answer has the variables at its end -/
def inSession (vars : Vars) (f : StateM Session α) : Run ε (α × Vars) := do
  let w ← get
  let (a, s) := f.run { vars := vars, loops := { maxDepth := env.settings.maxLoopDepth }, world := w }
  set s.world
  return (a, s.vars)

/-- run a node and write what it did into the record of its instance -/
def runNode (i : Instance) (n : Node) : Run EngineError (Outcome × Instance) := do
  let i := { i with currentNodeId := some n.id }
  env.emit i.id (.nodeStarted n.id n.kind.name)
  let startedAt ← env.now
  let (o, vars) ← inSession env i.vars (n.runWithRetries (contextOf env launcher i))
  let completedAt ← env.now
  env.emit i.id (o.happening n.id)
  let i ← persist env ({ i with vars := vars }.record n o startedAt completedAt)
  return (o, i)

/-! ### children -/

/-- Whether an instance goes on. -/
inductive Progress where
  | goesOn (i : Instance)
  | stopped (i : Instance)

/-- the error of the parent of a child that has not completed -/
def childFailure (child : Instance) : String :=
  "Subprocess " ++ child.id ++ " failed: " ++ child.error.getD child.status.name

/-- the parent with the outputs of a completed child, and the node that started it done -/
def takeOver (parent child : Instance) (nodeId : String) (link : ChildLink) : Instance :=
  let outputs := childOutputs child link.outputMapping
  let summary := Json.ofMembers [("child_instance_id", .str child.id), ("status", child.status.encode),
    ("outputs", .obj outputs)]
  { parent with
    vars := Dict.overlay (Dict.insert parent.vars nodeId summary) outputs
    nodeStatuses := Dict.insert parent.nodeStatuses nodeId .completed }

/-- The parent after its child has finished.  It takes over the outputs of a completed child, and fails with any
other. -/
def applyChild (parent : Instance) (n : Node) (child : Instance) (link : ChildLink) :
    Run EngineError Progress := do
  let parent := parent.rememberChild child link.parentNodeId
  if child.status = .completed then return .goesOn (takeOver parent child n.id link)
  else return .stopped (← failInstance env parent (childFailure child))

/-- a finished child that an outcome waits for, and its link -/
def finishedChild? (s : Store) (o : Outcome) : Option (Instance × ChildLink) :=
  match o.wait with
  | some w => match s.getInstance? w.id, s.getLink? w.id with
    | some child, some link => if child.status.isTerminal then some (child, link) else none
    | _, _ => none
  | none => none

/-- the parent of a child that has finished before the parent could wait for it, if there is such a child -/
def reconcile (i : Instance) (n : Node) (o : Outcome) : Run EngineError (Option Progress) := do
  match ← Run.fromStore fun s => finishedChild? s o with
  | some (child, link) => do
    match ← applyChild env i n child link with
    | .goesOn i => return some (.goesOn (← persist env i))
    | .stopped i => return some (.stopped i)
  | none => return none

/-! ### the walk -/

/-- What a walk does after a node. -/
inductive Next where
  /-- on to some nodes, before the pending ones -/
  | visit (targets : List String) (i : Instance)
  | stop (i : Instance)

/-- the error of a walk that runs too many nodes -/
def budgetError (budget : Nat) (last : String) : String :=
  "Traversal exceeded " ++ toString budget ++
    " node executions without waiting or reaching an end node (last node: " ++ last ++ ")"

/-- the instance waits for what a node waits for -/
def park (i : Instance) (o : Outcome) : Run EngineError Instance := do
  let now ← env.now
  persistStatus env { i.setStatus .waiting now with waitingFor := o.wait }

/-- what follows a node that has ended with an outcome -/
def afterNode (d : Definition) (i : Instance) (n : Node) (o : Outcome) : Run EngineError Next :=
  match o.status with
  | .completed | .breakLoop | .continueLoop =>
    if n.kind = .finish then return .visit [] i else return .visit (d.nextNodes n o.route) i
  | .waiting =>
    if n.kind = .subprocess then do
      match ← reconcile env i n o with
      | some (.goesOn i) => return .visit (d.nextNodes n none) i
      | some (.stopped i) => return .stop i
      | none => return .stop (← park env i o)
    else return .stop (← park env i o)
  | .failed => return .stop (← failInstance env i (o.error.getD ("Node " ++ n.id ++ " failed")))

/-- A walk of at most `steps` more nodes.  An instance without pending nodes is completed. -/
def walk (d : Definition) : (steps : Nat) → (pending : List String) → Instance → Run EngineError Instance
  | _, [], i => enterStatus env i .completed
  | 0, id :: _, i =>
    match d.findNode? id with
    | none => failInstance env i (WorkflowError.nodeNotFound id).message
    | some n => failInstance env i (budgetError env.settings.maxStepsPerTraversal n.id)
  | steps + 1, id :: pending, i =>
    match d.findNode? id with
    | none => failInstance env i (WorkflowError.nodeNotFound id).message
    | some n => do
      let (o, i) ← runNode env launcher i n
      match ← afterNode env d i n o with
      | .visit targets i => walk d steps (targets ++ pending) i
      | .stop i => return i

/-- a walk with the whole budget -/
def walkFrom (d : Definition) (pending : List String) (i : Instance) : Run EngineError Instance :=
  walk env launcher d env.settings.maxStepsPerTraversal pending i

end Workflows.Engine
