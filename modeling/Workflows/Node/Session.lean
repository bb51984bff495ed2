import Workflows.Expr.Template
import Workflows.Instance.Basic
import Workflows.Json.Decode
import Workflows.Loop
import Workflows.World

/-!
# The session of a node

A node runs in a session: it sees and changes variables, open loops and the world.  Its handler is a `NodeRun`,
which ends in an outcome or a cause of failure.

* `Session`, `NodeContext`: what a node may change, and what it may only read
* `NodeRun`: a computation of a node
* `Node.settings`: the settings of a node, decoded
* `Node.deadline`: a point in time some seconds ahead
-/

namespace Workflows

/-- What a node may change. -/
structure Session where
  vars : Vars
  loops : LoopStack
  world : World
  /-- the children that nodes have asked for -/
  launched : Array StartRequest := #[]

/-- A computation of a node. -/
abbrev NodeRun := ExceptT NodeError (StateM Session)

/-- A way to start an instance; it answers with its id. -/
abbrev Launcher := StartRequest → Run EngineError String

/-- What a node may only read. -/
structure NodeContext where
  env : Env
  instanceId : String
  nestingLevel : Nat
  /-- how children are started, where that is possible -/
  launcher : Option Launcher

namespace NodeRun

/-- fail for settings that make no sense -/
def misconfigured (reason : String) : NodeRun α := throw (.configuration reason)

/-- what the settings have to give -/
def demand (value : Option α) (reason : String) : NodeRun α :=
  match value with
  | some a => return a
  | none => misconfigured reason

def vars : NodeRun Vars := return (← get).vars

def setVar (name : String) (value : Json) : NodeRun Unit :=
  modify fun s => { s with vars := Dict.insert s.vars name value }

/-- set a variable where a name for it is given -/
def setVar? (name : Option String) (value : Json) : NodeRun Unit :=
  match name with
  | some n => setVar n value
  | none => return ()

/-- an operation on the world -/
def onWorld (f : StateM World α) : NodeRun α := do
  let s ← get
  let (a, world) := f.run s.world
  set { s with world := world }
  return a

/-- an operation on the store that may fail -/
def onStore (f : Store → Except StorageError α × Store) : NodeRun α := do
  match ← onWorld (World.onStore f) with
  | .ok a => return a
  | .error e => throw (.storage e)

def changeStore (f : Store → Store) : NodeRun Unit := onWorld (World.changeStore f)

def fromStore (f : Store → α) : NodeRun α := onWorld (World.fromStore f)

end NodeRun

namespace NodeContext
open NodeRun
variable (c : NodeContext)

def now : NodeRun Instant := onWorld c.env.now

def freshId : NodeRun String := onWorld c.env.freshId

def message (n : Node) (m : NodeMessage) : NodeRun Unit :=
  onWorld (c.env.emit c.instanceId (.nodeMessage n.id m))

def info (n : Node) (m : String) : NodeRun Unit := c.message n (.info m)

def warn (n : Node) (m : String) : NodeRun Unit := c.message n (.warning m)

end NodeContext

namespace Node

/-- the settings of a node; no settings are the same as an empty record -/
def settings (n : Node) (decode : Decoder α) : NodeRun α :=
  match decode (if n.data.isNull then .obj [] else n.data) with
  | some a => return a
  | none => NodeRun.misconfigured
    ("invalid " ++ n.kind.name ++ " configuration on node " ++ n.id ++ ": the fields are not as expected")

/-- the greatest number of milliseconds in a time span -/
def spanLimit : Int := 9223372036854775808

/-- the point some seconds after another, rounded to milliseconds -/
def laterBy? (start : Instant) (seconds : Float) : Option Instant :=
  match Double.nearest? (seconds * 1000.0) with
  | some millis => if millis.natAbs < spanLimit then start.addMillis? millis else none
  | none => none

/-- the point some seconds from now -/
def deadline (c : NodeContext) (n : Node) (seconds : Float) : NodeRun Instant := do
  NodeRun.demand (laterBy? (← c.now) seconds)
    ("Time span of " ++ Number.proseLayout.write seconds ++ " seconds on node " ++ n.id ++ " is out of range")

end Node
end Workflows
