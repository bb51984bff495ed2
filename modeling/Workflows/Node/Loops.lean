import Workflows.Definition.Codec
import Workflows.Node.Session

/-!
# Loops

A loop node opens a loop and reports its bounds; a control node ends the innermost loop or counts its next
iteration.

* `loopForEach`, `loopWhile`, `loopDoWhile`, `loopRepeat`: open a loop
* `loopControl`: `loop_break` and `loop_continue`
-/

namespace Workflows.Node
open Decode NodeRun

/-- open a loop -/
def enterLoop (n : Node) : NodeRun LoopFrame := do
  let s ← get
  match s.loops.enter? n.id n.kind with
  | .ok (frame, loops) => do
    set { s with loops := loops }
    return frame
  | .error e => throw e

/-- the outcome of a loop node: what all loops report, and more -/
def loopOutcome (n : Node) (frame : LoopFrame) (more : List (String × Json)) : Outcome :=
  .done (.ofMembers ([("loop", .bool true), ("loop_type", .str n.kind.name),
    ("nesting_level", .ofNat frame.nestingLevel)] ++ more))

/-! ### loops over a list -/

structure ForEachSettings where
  collection : Json
  itemVariable : Option String
  indexVariable : Option String

def ForEachSettings.decode : Decoder ForEachSettings := fun v => do
  let f ← fields (plain ["collection", "item_variable", "index_variable"]) v
  return {
    collection := ← f.withDefault "collection" value .null
    itemVariable := ← f.orNone "item_variable" text
    indexVariable := ← f.orNone "index_variable" text }

def loopForEach (n : Node) : NodeRun Outcome := do
  let s ← n.settings ForEachSettings.decode
  let items ← match resolve (← vars) s.collection with
    | .arr items => pure items
    | .null => pure []
    | other => misconfigured ("collection for loop " ++ n.id ++ " is not a list: " ++ other.compact)
  let frame ← enterLoop n
  return loopOutcome n frame [("total_items", .ofNat items.length), ("current_index", .int 0),
    ("item_variable", .str (s.itemVariable.getD "item")), ("index_variable", .str (s.indexVariable.getD "index")),
    ("continue_loop", .bool !items.isEmpty), ("collection", .arr items)]

/-! ### loops on a condition -/

/-- how often a loop on a condition runs where its settings do not say -/
def defaultMaxIterations : Nat := 100

structure ConditionSettings where
  condition : Option String
  maxIterations : Option Nat

def ConditionSettings.decode : Decoder ConditionSettings := fun v => do
  let f ← fields (plain ["condition", "max_iterations"]) v
  return ⟨← f.orNone "condition" text, ← f.orNone "max_iterations" (natural 64)⟩

def ConditionSettings.limit (s : ConditionSettings) : Json := .ofNat (s.maxIterations.getD defaultMaxIterations)

/-- a condition holds; one that is no expression does not -/
def holds (vs : Vars) (condition : String) : Bool := (condition? vs condition).getD false

def loopWhile (n : Node) : NodeRun Outcome := do
  let s ← n.settings ConditionSettings.decode
  let condition ← demand s.condition ("No condition configured for loop " ++ n.id)
  let goesOn := holds (← vars) condition
  let frame ← enterLoop n
  return loopOutcome n frame [("condition", .str condition), ("iteration", .int 0), ("max_iterations", s.limit),
    ("continue_loop", .bool goesOn)]

/-- The body runs before the condition is asked, so the loop always goes on at first. -/
def loopDoWhile (n : Node) : NodeRun Outcome := do
  let s ← n.settings ConditionSettings.decode
  let condition := s.condition.getD ""
  let goesOn := condition ≠ "" && holds (← vars) condition
  let frame ← enterLoop n
  return loopOutcome n frame [("condition", .str condition), ("condition_result", .bool goesOn),
    ("iteration", .int 0), ("max_iterations", s.limit), ("continue_loop", .bool true)]

/-! ### loops of a fixed length -/

def repeatCountOf : Decoder Json := fun v => do
  let f ← fields [("count", ["times"])] v
  f.withDefault "count" value .null

/-- the greatest number of iterations -/
def maxCount : Nat := Number.wordCount - 1

/-- the whole iterations in a number; what is no number or negative has none -/
def iterations (x : Float) : Nat :=
  match Double.truncate? x with
  | some n => min n.toNat maxCount
  | none => if 0.0 < x then maxCount else 0

/-- the number of iterations that a value asks for -/
def countOf (n : Node) (v : Json) : NodeRun Float :=
  match v with
  | .null => return 0.0
  | .str s => demand (Number.readDouble? (Text.trim s))
    ("repeat count '" ++ s ++ "' on " ++ n.id ++ " is not a number")
  | other => demand other.double? ("repeat count on " ++ n.id ++ " is not a number: " ++ other.compact)

def loopRepeat (n : Node) : NodeRun Outcome := do
  let setting ← n.settings repeatCountOf
  let total := iterations (← countOf n (resolve (← vars) setting))
  let frame ← enterLoop n
  return loopOutcome n frame [("total_iterations", .ofNat total), ("current_iteration", .int 0),
    ("continue_loop", .bool (0 < total))]

/-! ### control -/

def guardOf : Decoder (Option String) := fun v => do
  let f ← fields (plain ["condition"]) v
  f.orNone "condition" text

/-- leave the innermost loop; the answer is its id -/
def exitLoop : NodeRun (Option String) := do
  let s ← get
  set { s with loops := s.loops.exit }
  return s.loops.current?.map (·.loopId)

/-- count one more iteration of the innermost loop -/
def tickLoop : NodeRun Unit := modify fun s => { s with loops := s.loops.tick }

/-- A control node acts unless its guard is false. -/
def loopControl (n : Node) : NodeRun Outcome := do
  let guard := (← n.settings guardOf).getD ""
  let acts := guard = "" || holds (← vars) guard
  if acts then
    if n.kind = .loopBreak then
      let exited ← exitLoop
      return { Outcome.ofStatus .breakLoop with
        output := some (.ofMembers [("condition_met", .bool true), ("loop_control", .str "break"),
          ("exited_loop", .ofOptionText exited)]) }
    else
      tickLoop
      return { Outcome.ofStatus .continueLoop with
        output := some (.ofMembers [("condition_met", .bool true), ("loop_control", .str "continue"),
          ("exited_loop", .null)]) }
  else return .done (.ofMembers [("condition_met", .bool false)])

end Workflows.Node
