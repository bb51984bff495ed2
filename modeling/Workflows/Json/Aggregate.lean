import Workflows.Json.Basic
import Workflows.Number.Double
import Workflows.Number.Read

/-!
# Aggregates

One value for a list of numbers, computed on doubles.

* `Aggregate`: the operations
* `Aggregate.of`: the value of an operation
-/

namespace Workflows

/-- a number; whole ones below `2^63` are integers -/
def Json.ofNumber (x : Float) : Json :=
  match Double.whole? x with
  | some n => if n.natAbs < 9223372036854775808 then .int n else .ofDouble x
  | none => .ofDouble x

/-- What is computed of a list. -/
inductive Aggregate where
  | sum | count | average | min | max
  deriving DecidableEq, Repr

namespace Aggregate

/-- the operation with a name -/
def ofName? : String → Option Aggregate
  | "sum" => some .sum
  | "count" => some .count
  | "average" => some .average
  | "avg" => some .average
  | "min" => some .min
  | "max" => some .max
  | _ => none

def total (xs : List Float) : Float := xs.foldl (· + ·) 0.0

/-- the number that a choice between two leaves of a list -/
def pick (better : Float → Float → Bool) : List Float → Json
  | [] => .null
  | x :: xs => .ofNumber (xs.foldl (fun best y => if better y best then y else best) x)

/-- the value of an operation; null where an empty list has none -/
def of : Aggregate → List Float → Json
  | .sum, xs => .ofNumber (total xs)
  | .count, xs => .ofNat xs.length
  | .average, [] => .null
  | .average, x :: xs => .ofNumber (total (x :: xs) / Float.ofNat (xs.length + 1))
  | .min, xs => pick (fun y best => y < best) xs
  | .max, xs => pick (fun y best => best < y) xs

end Aggregate
end Workflows
