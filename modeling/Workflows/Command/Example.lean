import Workflows.Definition.Graph

/-!
# An example workflow

Expenses above a limit go to a manager, all others straight to the end.
-/

namespace Workflows

def exampleNodes : List Node := [
  ⟨"start", .start, none, .obj []⟩,
  ⟨"check", .decision, some "Over limit?", .ofMembers [("condition", .str "amount > 500")]⟩,
  ⟨"review", .task, some "Manager review",
    .ofMembers [("title", .str "Review expense of $\x7bamount\x7d"), ("assignee", .str "manager"),
      ("dueInHours", .int 24)]⟩,
  ⟨"end", .finish, none, .obj []⟩]

def exampleWorkflow : Definition :=
  let empty : Definition := {
    id := "expense-approval"
    name := "Expense Approval"
    description := some "Routes large expenses to a manager, small ones straight through"
    status := .published
    version := 1
    subprocessCompatible := false
    nodes := exampleNodes
    edges := [] }
  let d := empty.connect "start" "check" none none
  let d := d.connect "check" "review" none (some "Yes")
  let d := d.connect "check" "end" none (some "No")
  d.connect "review" "end" none none

end Workflows
