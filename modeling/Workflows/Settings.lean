import Workflows.Json.Decode
import Workflows.Toml.Reader

/-!
# Settings of the engine
-/

namespace Workflows

/-- The limits that an engine runs under. -/
structure Settings where
  /-- how often a node that may be tried again is run at most -/
  maxAttempts : Nat := 3
  retryDelayMs : Nat := 1000
  maxNestingLevel : Nat := 5
  maxLoopDepth : Nat := 3
  httpTimeoutSecs : Nat := 30
  /-- how many characters of a response are kept -/
  responseBodyLimit : Nat := 1000
  defaultEventTimeoutSecs : Int := 86400
  eventBufferSize : Nat := 1000
  /-- how many nodes one walk may run -/
  maxStepsPerTraversal : Nat := 1000
  deriving DecidableEq, Repr

namespace Settings
open Decode

def encode (s : Settings) : Json :=
  .ofMembers [("max_attempts", .ofNat s.maxAttempts), ("retry_delay_ms", .ofNat s.retryDelayMs),
    ("max_nesting_level", .ofNat s.maxNestingLevel), ("max_loop_depth", .ofNat s.maxLoopDepth),
    ("http_timeout_secs", .ofNat s.httpTimeoutSecs), ("response_body_limit", .ofNat s.responseBodyLimit),
    ("default_event_timeout_secs", .int s.defaultEventTimeoutSecs), ("event_buffer_size", .ofNat s.eventBufferSize),
    ("max_steps_per_traversal", .ofNat s.maxStepsPerTraversal)]

/-- fields that are left out keep their defaults -/
def decode : Decoder Settings := fun v => do
  let d : Settings := {}
  let f ← fields
    (plain ["max_attempts", "retry_delay_ms", "max_nesting_level", "max_loop_depth", "http_timeout_secs",
      "response_body_limit", "default_event_timeout_secs", "event_buffer_size", "max_steps_per_traversal"]) v
  return {
    maxAttempts := ← f.withDefault "max_attempts" (natural 32) d.maxAttempts
    retryDelayMs := ← f.withDefault "retry_delay_ms" (natural 64) d.retryDelayMs
    maxNestingLevel := ← f.withDefault "max_nesting_level" (natural 32) d.maxNestingLevel
    maxLoopDepth := ← f.withDefault "max_loop_depth" (natural 64) d.maxLoopDepth
    httpTimeoutSecs := ← f.withDefault "http_timeout_secs" (natural 64) d.httpTimeoutSecs
    responseBodyLimit := ← f.withDefault "response_body_limit" (natural 64) d.responseBodyLimit
    defaultEventTimeoutSecs := ← f.withDefault "default_event_timeout_secs" integer d.defaultEventTimeoutSecs
    eventBufferSize := ← f.withDefault "event_buffer_size" (natural 64) d.eventBufferSize
    maxStepsPerTraversal := ← f.withDefault "max_steps_per_traversal" (natural 64) d.maxStepsPerTraversal }

/-- the settings in a TOML document -/
def ofToml? (s : String) : Option Settings := (Toml.read? s).bind decode

end Settings
end Workflows
