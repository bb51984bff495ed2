import Workflows.Json.Order
import Workflows.Json.Parser
import Workflows.Number.Read
import Workflows.Text.Case
import Workflows.Text.Class

/-!
# Functions on values

The functions that a transformation names.

* `Json.apply`: the result of a named function, or the reason why there is none
-/

namespace Workflows.Json

/-- the name of the type of a value -/
def typeName : Json → String
  | .null => "null"
  | .bool _ => "boolean"
  | .int _ => "number"
  | .double _ => "number"
  | .str _ => "string"
  | .arr _ => "list"
  | .obj _ => "object"

/-- the number that a text denotes: an integer if it is one, else a double; what is not finite is null -/
def numberOfText? (s : String) : Option Json :=
  let t := Text.trim s
  match Number.readInt64? t with
  | some n => some (.int n)
  | none => (Number.readDouble? t).map ofDouble

/-- values without repetitions, each at its first place -/
def distinct (items : List Json) : List Json :=
  items.foldl (fun seen v => if seen.any (·.same v) then seen else seen ++ [v]) []

/-- the items of a list, or the value itself -/
def unfolded : Json → List Json
  | .arr items => items
  | v => [v]

/-- the function with a name on texts -/
def applyToText? (s : String) : String → Option (Except String Json)
  | "uppercase" => some (.ok (.str (Text.uppercase s)))
  | "lowercase" => some (.ok (.str (Text.lowercase s)))
  | "trim" => some (.ok (.str (Text.trim s)))
  | "to_number" => match numberOfText? s with
    | some v => some (.ok v)
    | none => some (.error ("'" ++ s ++ "' is not a number"))
  | "reverse" => some (.ok (.str (String.ofList s.toList.reverse)))
  | "length" => some (.ok (.ofNat s.length))
  | "json_parse" => match Json.read? s with
    | some v => some (.ok v)
    | none => some (.error "JSON parse error: the text is no value")
  | _ => none

/-- the function with a name on lists -/
def applyToList? (items : List Json) : String → Option Json
  | "reverse" => some (.arr items.reverse)
  | "length" => some (.ofNat items.length)
  | "sort" => some (.arr (sortBy some false items))
  | "unique" => some (.arr (distinct items))
  | "flatten" => some (.arr (items.flatMap unfolded))
  | "first" => some (items.head?.getD .null)
  | "last" => some (items.getLast?.getD .null)
  | _ => none

/-- the function with a name on objects -/
def applyToObject? (members : Vars) : String → Option Json
  | "length" => some (.ofNat members.length)
  | "keys" => some (ofStrings (Dict.keys members))
  | "values" => some (.arr (Dict.values members))
  | _ => none

/-- the function with a name on values of any type -/
def applyToAny? (v : Json) : String → Option Json
  | "to_string" => some (.str v.text)
  | "json_stringify" => some (.str v.compact)
  | "truthy" => some (.bool v.truthy)
  | _ => none

/-- the function with a name that is defined for the type of a value -/
def applyTyped? (v : Json) (function : String) : Option (Except String Json) :=
  match v with
  | .str s => applyToText? s function
  | .arr items => (applyToList? items function).map .ok
  | .obj members => (applyToObject? members function).map .ok
  | .bool b => if function = "to_number" then some (.ok (.int (if b then 1 else 0))) else none
  | .null => none
  | number => if function = "to_number" then some (.ok number) else none

/-- the result of a function -/
def apply (function : String) (v : Json) : Except String Json :=
  match applyTyped? v function, applyToAny? v function with
  | some result, _ => result
  | none, some result => .ok result
  | none, none => .error ("unsupported function '" ++ function ++ "' for " ++ v.typeName)

end Workflows.Json
