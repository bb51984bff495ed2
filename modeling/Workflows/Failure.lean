import Workflows.Text.Case
import Workflows.Text.Class

/-!
# Classification of failures

A failure is known by its text only.  A table of keywords answers two questions about it: whether it is transient,
so that trying again may help, and which message explains it to a user.

* `failureRules`: the table
* `classify?`: the first rule that matches a text
* `isTransient`: whether any rule for transient failures matches
* `friendlyMessage`: the message for users
-/

namespace Workflows

/-- A row of the table. -/
structure FailureRule where
  keywords : List String
  /-- the failure may pass when the node is tried again -/
  transient : Bool
  message : String
  deriving DecidableEq, Repr

/-- the message where no rule matches -/
def defaultFriendlyMessage : String :=
  "Something went wrong while running this step. Please try again or contact your administrator."

/-- the table; the first match gives the message -/
def failureRules : List FailureRule := [
  ⟨["no form configured"], false,
    "This step needs a form, but no form has been configured for it."⟩,
  ⟨["unknown node type"], false,
    "This workflow contains a step type the engine does not support."⟩,
  ⟨["nesting level"], false,
    "Too many nested subprocesses. Simplify the workflow or flatten a level."⟩,
  ⟨["timeout"], true,
    "The operation timed out. The external service may be slow; please try again."⟩,
  ⟨["connection", "network"], true,
    "Could not reach the external service. Check the network connection and try again."⟩,
  ⟨["429"], true,
    "The external service is rate limiting requests. Please wait and try again."⟩,
  ⟨["500", "502", "503", "504", "unavailable", "temporarily", "transient"], true,
    "The external service is having problems right now. Please try again later."⟩,
  ⟨["401", "403", "unauthorized", "forbidden"], false,
    "Access was denied. Check the credentials configured for this step."⟩,
  ⟨["404", "not found"], false,
    "The requested resource could not be found."⟩]

/-- one of the keywords occurs in a text of small letters -/
def FailureRule.matchesText (rule : FailureRule) (lowered : String) : Bool :=
  rule.keywords.any fun k => Text.occursIn k lowered

/-- the first rule that matches -/
def classify? (error : String) : Option FailureRule :=
  let lowered := Text.lowercase error
  failureRules.find? (·.matchesText lowered)

/-- some rule for transient failures matches -/
def isTransient (error : String) : Bool :=
  let lowered := Text.lowercase error
  failureRules.any fun rule => rule.transient && rule.matchesText lowered

/-- the message that explains a failure to a user -/
def friendlyMessage (error : String) : String :=
  match classify? error with
  | some rule => rule.message
  | none => defaultFriendlyMessage

end Workflows
