import Workflows.Dict
import Workflows.Json.Basic

/-!
# Requests to other services
-/

namespace Workflows

/-- How a request proves who sends it. -/
inductive HttpAuth where
  | bearer (token : String)
  | basic (username password : String)
  deriving DecidableEq, Repr

/-- A request to a service. -/
structure HttpRequest where
  method : String
  url : String
  headers : Dict String
  body : Option Json
  auth : Option HttpAuth
  timeoutSecs : Nat
  deriving DecidableEq

/-- The answer of a service. -/
structure HttpReply where
  status : Nat
  body : String
  deriving DecidableEq, Repr

/-- the service has done what was asked -/
def HttpReply.isSuccess (r : HttpReply) : Bool := 200 ≤ r.status && r.status < 300

end Workflows
