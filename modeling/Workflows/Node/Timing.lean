import Workflows.Node.Session
import Workflows.Instance.Codec

/-!
# Timers and events

* `timer`: waits for a span or for a point in time, or only notes a deadline
* `event`: emits an event, or waits for one
-/

namespace Workflows.Node
open Decode NodeRun

structure TimerSettings where
  mode : Option String
  seconds : Float
  minutes : Float
  hours : Float
  scheduledTime : Option String

def TimerSettings.decode : Decoder TimerSettings := fun v => do
  let f ← fields [("timer_type", ["type"]), ("seconds", []), ("minutes", []), ("hours", []), ("scheduled_time", [])] v
  return {
    mode := ← f.orNone "timer_type" text
    seconds := ← f.withDefault "seconds" double 0.0
    minutes := ← f.withDefault "minutes" double 0.0
    hours := ← f.withDefault "hours" double 0.0
    scheduledTime := ← f.orNone "scheduled_time" text }

/-- the span in seconds -/
def TimerSettings.span (s : TimerSettings) : Float := s.seconds + s.minutes * 60.0 + s.hours * 3600.0

/-- the outcome of a timer that waits -/
def timerWait (c : NodeContext) (mode : String) (time : Instant) : NodeRun Outcome := do
  let id ← c.freshId
  return .waiting ⟨.timer, id, some time⟩
    (some (.ofMembers [("timer_type", .str mode), ("end_time", time.encode)]))

def timer (c : NodeContext) (n : Node) : NodeRun Outcome := do
  let s ← n.settings TimerSettings.decode
  match s.mode.getD "delay" with
  | "delay" => timerWait c "delay" (← n.deadline c s.span)
  | "scheduled" => do
    let raw ← demand s.scheduledTime ("No scheduled_time configured for timer " ++ n.id)
    let raw := Template.fill (← vars) raw
    let time ← demand (Instant.readStrict? (Text.trim raw))
      ("Invalid scheduled_time '" ++ raw ++ "' on " ++ n.id ++ ": not a point in time")
    timerWait c "scheduled" time
  | "timeout" => do
    let time ← n.deadline c s.span
    return .done (.ofMembers [("timer_type", .str "timeout"), ("sla_deadline", time.encode)])
  | other => misconfigured ("Unsupported timer type '" ++ other ++ "' on " ++ n.id)

structure EventSettings where
  mode : Option String
  name : Option String
  payload : Json
  timeoutSeconds : Option Int

def EventSettings.decode : Decoder EventSettings := fun v => do
  let f ← fields [("event_type", []), ("event_name", ["name"]), ("payload", []), ("timeout_seconds", [])] v
  return {
    mode := ← f.orNone "event_type" text
    name := ← f.orNone "event_name" text
    payload := ← f.withDefault "payload" value .null
    timeoutSeconds := ← f.orNone "timeout_seconds" integer }

/-- leave an event in the store -/
def emitEvent (c : NodeContext) (n : Node) (name : String) (payload : Json) : NodeRun Outcome := do
  let id ← c.freshId
  let payload := fillDeep (← vars) payload
  let createdAt ← c.now
  changeStore (·.insertEvent ⟨id, name, c.instanceId, n.id, payload, createdAt⟩)
  c.info n ("Emitted event " ++ name)
  return .done (.ofMembers [("event_id", .str id), ("event_name", .str name)])

/-- wait for an event with a name -/
def awaitEvent (c : NodeContext) (n : Node) (name : String) (timeoutSeconds : Option Int) : NodeRun Outcome := do
  let seconds := timeoutSeconds.getD c.env.settings.defaultEventTimeoutSecs
  let time ← n.deadline c (Float.ofInt seconds)
  return .waiting ⟨.event, name, some time⟩
    (some (.ofMembers [("event_name", .str name), ("timeout_at", time.encode)]))

def event (c : NodeContext) (n : Node) : NodeRun Outcome := do
  let s ← n.settings EventSettings.decode
  let name ← demand s.name ("No event name configured for event " ++ n.id)
  let name := Template.fill (← vars) name
  match s.mode.getD "send" with
  | "send" | "throw" => emitEvent c n name s.payload
  | "receive" | "catch" => awaitEvent c n name s.timeoutSeconds
  | other => misconfigured ("Unsupported event type '" ++ other ++ "' on " ++ n.id)

end Workflows.Node
