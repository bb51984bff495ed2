import Workflows.Definition.Basic

/-!
# The graph of a definition

* `Definition.findNode?`, `startNode?`, `outgoing`: nodes and the edges that leave them
* `Definition.connect`: a new edge
* `Definition.danglingEdges`: edges with an end that is no node
* `Definition.unreachable`: the nodes without a path from the start node
-/

namespace Workflows.Definition

/-- the first node with an id -/
def findNode? (d : Definition) (id : String) : Option Node := d.nodes.find? (·.id = id)

/-- the first start node -/
def startNode? (d : Definition) : Option Node := d.nodes.find? (·.kind = .start)

def hasEnd (d : Definition) : Bool := d.nodes.any (·.kind = .finish)

/-- the edges that leave a node, in their order -/
def outgoing (d : Definition) (id : String) : List Edge := d.edges.filter (·.source = id)

/-- the definition with one more edge -/
def connect (d : Definition) (source target : String) (handle label : Option String) : Definition :=
  let id := "e" ++ toString d.edges.length ++ "-" ++ source ++ "-" ++ target
  { d with edges := d.edges ++ [⟨id, source, target, handle, label⟩] }

def hasNode (d : Definition) (id : String) : Bool := d.nodes.any (·.id = id)

/-- edges with an end that is no node -/
def danglingEdges (d : Definition) : List Edge :=
  d.edges.filter fun e => !d.hasNode e.source || !d.hasNode e.target

/-! ### reachability -/

/-- the nodes that an edge joins to one of `ids` -/
def successors (d : Definition) (ids : List String) : List String :=
  (d.edges.filter fun e => ids.contains e.source && d.hasNode e.source && d.hasNode e.target).map (·.target)

/-- the nodes within `steps` edges of `reached` -/
def spread (d : Definition) : Nat → List String → List String
  | 0, reached => reached
  | steps + 1, reached =>
    let new := ((d.successors reached).filter fun id => !reached.contains id).eraseDups
    if new.isEmpty then reached else spread d steps (reached ++ new)

/-- the ids of the nodes with a path from the start node -/
def reachable (d : Definition) : List String :=
  match d.startNode? with
  | some s => d.spread d.nodes.length [s.id]
  | none => []

/-- the nodes without a path from the start node, in their order; none if there is no start node -/
def unreachable (d : Definition) : List String :=
  match d.startNode? with
  | some _ => (d.nodes.filter fun n => !d.reachable.contains n.id).map (·.id)
  | none => []

end Workflows.Definition
