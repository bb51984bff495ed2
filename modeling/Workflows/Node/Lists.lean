import Workflows.Json.Aggregate
import Workflows.Json.Function
import Workflows.Node.Session

/-!
# Shaping data

* `transform`: functions in turn, then a mapping
* `filter`, `sort`, `aggregate`: a list in, a list or a value out
* `calculate`: the value of an expression
-/

namespace Workflows.Node
open Decode NodeRun

/-- the variables with the members of an item over them, and the item itself as `item` -/
def itemScope (vs : Vars) (item : Json) : Vars :=
  let members := match item with
    | .obj members => members
    | _ => []
  Dict.insert (Dict.overlay vs members) "item" item

/-- the items of an input; null has none -/
def itemsOf (n : Node) (v : Json) : NodeRun (List Json) :=
  match v with
  | .arr items => return items
  | .null => return []
  | other => misconfigured ("input for " ++ n.id ++ " is not a list: " ++ other.compact)

/-! ### transformation -/

structure TransformSettings where
  input : Json
  functions : List String
  mapping : Vars
  outputVariable : Option String

def TransformSettings.decode : Decoder TransformSettings := fun v => do
  let f ← fields (plain ["input", "functions", "mapping", "output_variable"]) v
  return {
    input := ← f.withDefault "input" value .null
    functions := ← f.withDefault "functions" (list text) []
    mapping := ← f.withDefault "mapping" object []
    outputVariable := ← f.orNone "output_variable" text }

/-- the functions in turn; the error names the one that fails -/
def applyAll (n : Node) : List String → Json → NodeRun Json
  | [], v => return v
  | f :: fs, v => match Json.apply f v with
    | .ok w => applyAll n fs w
    | .error reason => throw (.executionFailed ("Transform '" ++ f ++ "' failed on " ++ n.id ++ ": " ++ reason))

/-- The value of a source in a mapping: a path into an object, or else an expression. -/
def mappedValue (scope : Vars) (item source : Json) : Json :=
  match source, item with
  | .str path, .obj _ => match scope.lookup? ("item." ++ path) with
    | some v => v
    | none => evaluate scope path
  | .str path, _ => evaluate scope path
  | other, _ => other

/-- an object of the sources in a mapping; without a mapping the value stays as it is -/
def mapped (vs : Vars) (mapping : Vars) (v : Json) : Json :=
  if mapping.isEmpty then v else .obj (Dict.mapValues (mappedValue (itemScope vs v) v) mapping)

def transform (n : Node) : NodeRun Outcome := do
  let s ← n.settings TransformSettings.decode
  let vs ← vars
  let v ← applyAll n s.functions (resolve vs s.input)
  let result := mapped vs s.mapping v
  setVar? s.outputVariable result
  return .done (.ofMembers [("result", result)])

/-! ### lists -/

structure FilterSettings where
  input : Json
  condition : Option String
  outputVariable : Option String

def FilterSettings.decode : Decoder FilterSettings := fun v => do
  let f ← fields (plain ["input", "condition", "output_variable"]) v
  return {
    input := ← f.withDefault "input" value .null
    condition := ← f.orNone "condition" text
    outputVariable := ← f.orNone "output_variable" text }

def filter (n : Node) : NodeRun Outcome := do
  let s ← n.settings FilterSettings.decode
  let condition ← demand s.condition ("No condition configured for filter " ++ n.id)
  let vs ← vars
  let items ← itemsOf n (resolve vs s.input)
  let kept := items.filter fun item => condition? (itemScope vs item) condition = some true
  setVar? s.outputVariable (.arr kept)
  return .done (.ofMembers [("count", .ofNat kept.length), ("result", .arr kept)])

structure SortSettings where
  input : Json
  key : Option String
  order : Option String
  outputVariable : Option String

def SortSettings.decode : Decoder SortSettings := fun v => do
  let f ← fields (plain ["input", "key", "order", "output_variable"]) v
  return {
    input := ← f.withDefault "input" value .null
    key := ← f.orNone "key" text
    order := ← f.orNone "order" text
    outputVariable := ← f.orNone "output_variable" text }

/-- whether a word asks for a descending order -/
def isDescending? : String → Option Bool
  | "asc" => some false
  | "ascending" => some false
  | "desc" => some true
  | "descending" => some true
  | _ => none

/-- the key of an item: the value at a path, or the item itself -/
def keyOf (path : Option String) (item : Json) : Option Json :=
  match path with
  | some p => item.at? p
  | none => some item

def sort (n : Node) : NodeRun Outcome := do
  let s ← n.settings SortSettings.decode
  let items ← itemsOf n (resolve (← vars) s.input)
  let order := (s.order.map Text.lowercase).getD "asc"
  let descending ← demand (isDescending? order) ("Unknown sort order '" ++ order ++ "' on " ++ n.id)
  let result := Json.arr (Json.sortBy (keyOf s.key) descending items)
  setVar? s.outputVariable result
  return .done (.ofMembers [("result", result)])

structure AggregateSettings where
  input : Json
  operation : Option String
  field : Option String
  outputVariable : Option String

def AggregateSettings.decode : Decoder AggregateSettings := fun v => do
  let f ← fields (plain ["input", "operation", "field", "output_variable"]) v
  return {
    input := ← f.withDefault "input" value .null
    operation := ← f.orNone "operation" text
    field := ← f.orNone "field" text
    outputVariable := ← f.orNone "output_variable" text }

/-- the numbers among the items, or among their values at a path -/
def numbersOf (path : Option String) (items : List Json) : List Float :=
  items.filterMap fun item => (keyOf path item).bind Json.double?

def aggregate (n : Node) : NodeRun Outcome := do
  let s ← n.settings AggregateSettings.decode
  let operation := s.operation.getD "sum"
  let items ← itemsOf n (resolve (← vars) s.input)
  let kind ← demand (Aggregate.ofName? operation)
    ("Unknown aggregate operation '" ++ operation ++ "' on " ++ n.id)
  let result := kind.of (numbersOf s.field items)
  setVar? s.outputVariable result
  return .done (.ofMembers [("operation", .str operation), ("result", result)])

/-! ### expressions -/

structure CalculateSettings where
  expression : Option String
  outputVariable : Option String

def CalculateSettings.decode : Decoder CalculateSettings := fun v => do
  let f ← fields (plain ["expression", "output_variable"]) v
  return ⟨← f.orNone "expression" text, ← f.orNone "output_variable" text⟩

def calculate (n : Node) : NodeRun Outcome := do
  let s ← n.settings CalculateSettings.decode
  let expression ← demand s.expression ("No expression configured for calculate " ++ n.id)
  let target := s.outputVariable.getD "result"
  let result := evaluate (← vars) expression
  setVar target result
  return .done (.ofMembers [("output_variable", .str target), ("result", result)])

end Workflows.Node
