import Workflows.Node.Action
import Workflows.Node.Flow
import Workflows.Node.Lists
import Workflows.Node.Loops
import Workflows.Node.People
import Workflows.Node.Records
import Workflows.Node.Subprocess
import Workflows.Node.Timing

/-!
# Running a node

* `Node.handle`: the computation of a node, by its kind
* `Node.execute`: its outcome; a cause of failure becomes a failed outcome with its message
-/

namespace Workflows.Node

/-- the computation of a node -/
def handle (c : NodeContext) (n : Node) : NodeRun Outcome :=
  match n.kind with
  | .start | .finish | .parallel | .merge => return .completed
  | .task => n.task c
  | .decision => n.decision c
  | .switch => n.switch
  | .approval => n.approval c
  | .form => n.form
  | .screen => n.screen
  | .action => n.action c
  | .timer => n.timer c
  | .subprocess => n.subprocess c
  | .event => n.event c
  | .assignment => n.assignment
  | .loopForEach => n.loopForEach
  | .loopWhile => n.loopWhile
  | .loopDoWhile => n.loopDoWhile
  | .loopRepeat => n.loopRepeat
  | .loopBreak | .loopContinue => n.loopControl
  | .lookupRecord => n.lookupRecord
  | .createRecord => n.createRecord c
  | .updateRecord => n.updateRecord
  | .deleteRecord => n.deleteRecord
  | .transform => n.transform
  | .filter => n.filter
  | .sort => n.sort
  | .aggregate => n.aggregate
  | .calculate => n.calculate
  | .unknown name => throw (.unknownNodeType name)

/-- the outcome of a node -/
def execute (c : NodeContext) (n : Node) : StateM Session Outcome := do
  match ← (n.handle c).run with
  | .ok outcome => return outcome
  | .error e => return .failed e.message

end Workflows.Node
