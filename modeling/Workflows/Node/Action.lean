import Workflows.Node.Session

/-!
# Actions

An action calls a service, or computes the value of a script.

* `call`: a request and its outcome; a reply that is no success is a failure of the node
* `action`: the three types `http`, `webhook` and `script`
-/

namespace Workflows.Node
open Decode NodeRun

structure ActionSettings where
  actionType : Option String
  method : Option String
  url : Option String
  headers : Vars
  body : Option Json
  payload : Option Json
  auth : Option HttpAuth
  script : Option String

def decodeAuth : Decoder HttpAuth := fun v => do
  let (type, rest) ← tagged "type" v
  match type with
  | "bearer" => do
    let f ← fields (plain ["token"]) rest
    return .bearer (← f.required "token" text)
  | "basic" => do
    let f ← fields (plain ["username", "password"]) rest
    return .basic (← f.required "username" text) (← f.withDefault "password" text "")
  | _ => none

def ActionSettings.decode : Decoder ActionSettings := fun v => do
  let f ← fields [("action_type", ["actionType"]), ("method", []), ("url", []), ("headers", []), ("body", []),
    ("payload", []), ("auth", []), ("script", [])] v
  return {
    actionType := ← f.orNone "action_type" text
    method := ← f.orNone "method" text
    url := ← f.orNone "url" text
    headers := ← f.withDefault "headers" object []
    body := ← f.orNone "body" value
    payload := ← f.orNone "payload" value
    auth := ← f.orNone "auth" decodeAuth
    script := ← f.orNone "script" text }

/-- credentials with their placeholders filled in -/
def fillAuth (vs : Vars) : HttpAuth → HttpAuth
  | .bearer token => .bearer (Template.fill vs token)
  | .basic username password => .basic (Template.fill vs username) (Template.fill vs password)

/-- the first `limit` characters of a text -/
def shortened (text : String) (limit : Nat) : String := String.ofList (text.toList.take limit)

/-- the outcome for a reply -/
def replyOutcome (limit : Nat) (r : HttpReply) : Outcome :=
  let body := shortened r.body limit
  let output := Json.ofMembers [("status_code", .ofNat r.status), ("body", .str body),
    ("success", .bool r.isSuccess)]
  if r.isSuccess then .done output
  else { Outcome.failed ("HTTP " ++ toString r.status ++ ": " ++ body) with output := some output }

/-- call a service -/
def call (c : NodeContext) (n : Node) (s : ActionSettings) (method : String) (body : Option Json) :
    NodeRun Outcome := do
  let url ← demand s.url ("No url configured for action " ++ n.id)
  let vs ← vars
  let request : HttpRequest := {
    method
    url := Template.fill vs url
    headers := Dict.mapValues (fun v => Template.fill vs v.text) s.headers
    body
    auth := s.auth.map (fillAuth vs)
    timeoutSecs := c.env.settings.httpTimeoutSecs }
  c.info n (method ++ " " ++ request.url)
  match ← onWorld (c.env.send request) with
  | .ok reply => return replyOutcome c.env.settings.responseBodyLimit reply
  | .error e => throw e

def action (c : NodeContext) (n : Node) : NodeRun Outcome := do
  let s ← n.settings ActionSettings.decode
  let vs ← vars
  match s.actionType.getD "http" with
  | "http" => call c n s (s.method.getD "GET") (s.body.map (fillDeep vs))
  | "webhook" => call c n s "POST" (some (match s.payload with
    | some payload => fillDeep vs payload
    | none => .obj vs))
  | "script" => do
    let script ← demand s.script ("No script configured for action " ++ n.id)
    return .done (.ofMembers [("result", evaluate vs script)])
  | other => misconfigured ("Unsupported action type '" ++ other ++ "' on " ++ n.id)

end Workflows.Node
