import Workflows.Inbox.Codec
import Workflows.Node.Session

/-!
# Work for people

* `task`: leaves a task, for an assignee chosen by its strategy, and waits for it
* `approval`: leaves a question to approvers and waits for it
* `form`, `screen`: wait for a form or a screen
-/

namespace Workflows.Node
open Decode NodeRun

/-! ### tasks -/

structure TaskSettings where
  title : Option String
  description : Option String
  strategy : Assignment
  assignee : Option String
  role : Option String
  slaHours : Option Float

def TaskSettings.decode : Decoder TaskSettings := fun v => do
  let f ← fields [("title", []), ("description", []), ("strategy", ["assignment_strategy", "assignmentStrategy"]),
    ("assignee", []), ("role", []), ("sla_hours", ["dueInHours", "due_in_hours", "slaHours"])] v
  return {
    title := ← f.orNone "title" text
    description := ← f.orNone "description" text
    strategy := ← f.withDefault "strategy" Assignment.decode .direct
    assignee := ← f.orNone "assignee" text
    role := ← f.orNone "role" text
    slaHours := ← f.orNone "sla_hours" double }

/-- the first member with the least work -/
def leastLoaded? (s : Store) : List String → Option String
  | [] => none
  | m :: ms => match leastLoaded? s ms with
    | some best => if s.workload best < s.workload m then some best else some m
    | none => some m

/-- the member whose turn it is after a number of tasks -/
def memberInTurn? (members : List String) (tasks : Nat) : Option String := members[tasks % members.length]?

/-- The assignee that a strategy chooses.  Without members to choose from it is the one in the settings. -/
def chosenAssignee (s : Store) (t : TaskSettings) : Option String :=
  let members := (t.role.map s.roleMembers).getD []
  if members.isEmpty then t.assignee
  else match t.strategy with
    | .direct => t.assignee
    | .role => members.head?
    | .roundRobin => memberInTurn? members s.tasks.length
    | .loadBalanced => leastLoaded? s members

/-- whether the choice of an assignee counts as work for the chosen one -/
def countsAsWork (s : Store) (t : TaskSettings) : Bool :=
  t.strategy = .loadBalanced && !((t.role.map s.roleMembers).getD []).isEmpty

/-- choose the assignee, and count the work of a balanced choice -/
def assignTask (t : TaskSettings) : NodeRun (Option String) := do
  let assignee ← fromStore fun s => chosenAssignee s t
  let counts ← fromStore fun s => countsAsWork s t
  match assignee with
  | some user => if counts then changeStore (·.addWorkload user)
  | none => pure ()
  return assignee

/-- the title in the settings, or else the name or the id of the node -/
def titleOf (n : Node) (title : Option String) : String := ((title <|> n.name).getD n.id)

def task (c : NodeContext) (n : Node) : NodeRun Outcome := do
  let s ← n.settings TaskSettings.decode
  let dueDate ← match s.slaHours with
    | some hours => do pure (some (← n.deadline c (hours * 3600.0)))
    | none => pure none
  let assignee ← assignTask s
  let id ← c.freshId
  let createdAt ← c.now
  let vs ← vars
  changeStore (·.insertTask {
    id, instanceId := c.instanceId, nodeId := n.id
    title := Template.fill vs (titleOf n s.title)
    description := s.description.map (Template.fill vs)
    assignee, role := s.role, strategy := s.strategy, status := "pending", dueDate, createdAt })
  c.info n ("Created task " ++ id ++ " for " ++ assignee.getD "unassigned")
  return .waiting ⟨.task, id, dueDate⟩
    (some (.ofMembers [("task_id", .str id), ("assignee", .ofOptionText assignee),
      ("due_date", .ofOptionInstant dueDate)]))

/-! ### approvals, forms and screens -/

structure ApprovalSettings where
  title : Option String
  approvers : List String
  approvalType : Option String

def ApprovalSettings.decode : Decoder ApprovalSettings := fun v => do
  let f ← fields (plain ["title", "approvers", "approval_type"]) v
  return {
    title := ← f.orNone "title" text
    approvers := ← f.withDefault "approvers" (list text) []
    approvalType := ← f.orNone "approval_type" text }

def approval (c : NodeContext) (n : Node) : NodeRun Outcome := do
  let s ← n.settings ApprovalSettings.decode
  let id ← c.freshId
  let createdAt ← c.now
  let title := Template.fill (← vars) (titleOf n s.title)
  let approvalType := s.approvalType.getD "any"
  changeStore (·.insertApproval {
    id, instanceId := c.instanceId, nodeId := n.id, title, approvers := s.approvers, approvalType
    decisions := [], status := "pending", createdAt })
  return .waiting ⟨.approval, id, none⟩
    (some (.ofMembers [("approval_id", .str id), ("approvers", .ofStrings s.approvers),
      ("approval_type", .str approvalType)]))

def formOf : Decoder (Option String) := fun v => do
  let f ← fields [("form_id", ["formId", "form"])] v
  f.orNone "form_id" text

def form (n : Node) : NodeRun Outcome := do
  let id ← demand ((← n.settings formOf).filter (· ≠ "")) ("No form configured for form node " ++ n.id)
  return .waiting ⟨.form, id, none⟩ (some (.ofMembers [("form_id", .str id)]))

def screenOf : Decoder (Option String) := fun v => do
  let f ← fields [("screen_id", ["screenId", "screen"])] v
  f.orNone "screen_id" text

def screen (n : Node) : NodeRun Outcome := do
  let id := (← n.settings screenOf).getD n.id
  return .waiting ⟨.screen, id, none⟩ (some (.ofMembers [("screen_id", .str id)]))

end Workflows.Node
