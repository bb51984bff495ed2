import Workflows.Error
import Workflows.Expr.Template
import Workflows.Instance.Basic

/-!
# Parents and children

What a child gets from its parent and gives back.

* `childLevel`: the nesting level of a child, within the limit
* `childVariables`: the variables that a child starts with
* `childOutputs`: the variables that a parent takes over from a finished child
* `Instance.rememberChild`: the parent with an entry for the child
-/

namespace Workflows

/-- the nesting level below another, within the limit -/
def childLevel (max level : Nat) : Except NodeError Nat :=
  if level + 1 ≤ max then .ok (level + 1) else .error (.nestingLimit (level + 1) max)

/-- the value of a source: a template if it has a placeholder, else the name of a variable -/
def sourceValue? (vs : Vars) (source : String) : Option Json :=
  if Text.occursIn "$\x7b" source then some (evaluate vs source) else vs.lookup? source

/-- the mapped inputs; a source without a value gives none -/
def mappedInputs (vs : Vars) (mapping : Dict String) : List (String × Json) :=
  mapping.filterMap fun m => (sourceValue? vs m.2).map (m.1, ·)

/-- The variables of a child.  An isolated child has the mapped inputs only; any other has the variables of its
parent with the inputs over them. -/
def childVariables (vs : Vars) (mapping : Dict String) (isolated : Bool) : Vars :=
  Dict.overlay (if isolated then [] else vs) (mappedInputs vs mapping)

/-- a member of the newest output in a log that has it -/
def loggedOutput? (log : List LogEntry) (name : String) : Option Json :=
  log.reverse.findSome? fun e => e.output.bind (·.member? name)

/-- the value that a child gives back under a name: a variable, or else an output of one of its nodes -/
def childOutput? (child : Instance) (name : String) : Option Json :=
  match child.vars.lookup? name with
  | some v => some v
  | none => loggedOutput? child.log name

/-- the variables for the parent; a name without a value gives none -/
def childOutputs (child : Instance) (mapping : Dict String) : Vars :=
  mapping.filterMap fun m => (childOutput? child m.2).map (m.1, ·)

/-- the parent with an entry for a child, unless it has one -/
def Instance.rememberChild (parent child : Instance) (nodeId : String) : Instance :=
  if parent.children.any fun e => e.instanceId = child.id then parent
  else { parent with
    children := parent.children ++ [⟨child.id, child.workflowId, nodeId, child.status, child.completedAt⟩] }

end Workflows
