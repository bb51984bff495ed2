import Workflows.Definition.Graph
import Workflows.Text.Case

/-!
# Routing

Where a walk goes on after a node.  A decision follows the edges of the branch it has chosen; every other node
continues along all its edges.

* `branchOf?`: the branch that a text names
* `Edge.branch?`: the branch of an edge
* `Definition.nextNodes`: the ids of the next nodes, in the order of the edges
-/

namespace Workflows

/-- words for the branch of a decision that holds -/
def positiveWords : List String := ["yes", "true", "approve", "approved", "shortlist", "accept"]

/-- words for the branch of a decision that does not hold; they win over positive words -/
def negativeWords : List String := ["no", "false", "reject", "rejected", "decline", "fail"]

/-- the branch that a text names with one of its words -/
def branchOf? (text : String) : Option Bool :=
  let ws := Text.words (!Text.isAlphanumeric ·) (Text.lowercase (Text.trim text))
  if ws.any negativeWords.contains then some false
  else if ws.any positiveWords.contains then some true
  else none

/-- the branch of an edge: that of its handle, or of its label where there is no handle -/
def Edge.branch? (e : Edge) : Option Bool :=
  match e.handle with
  | some h => if h = "" then e.label.bind branchOf? else branchOf? h
  | none => e.label.bind branchOf?

/-- the branch that a route chooses; no route, or one without a branch word, chooses the negative one -/
def chosenBranch (route : Option String) : Bool := (route.bind branchOf?).getD false

/-- the ids of the nodes after a node that has ended with a route -/
def Definition.nextNodes (d : Definition) (node : Node) (route : Option String) : List String :=
  let edges := d.outgoing node.id
  let followed :=
    if node.kind = .decision then edges.filter fun e => e.branch? = some (chosenBranch route) else edges
  followed.map (·.target)

end Workflows
