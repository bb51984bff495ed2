import Workflows.Json.Printer

/-!
# Sorted lists

Sort keys are values or missing.  Two numbers are compared as doubles and any other two values by their texts; nulls
and missing keys come last in both directions.

* `Json.keyOrder`: the order of two keys
* `Json.sortBy`: a list sorted by a key; items with equal keys keep their order
-/

namespace Workflows.Json

/-- the order of two values that are not null -/
def valueOrder (a b : Json) : Ordering :=
  match a.double?, b.double? with
  | some x, some y => if x < y then .lt else if y < x then .gt else .eq
  | _, _ => compare a.text b.text

/-- a key that is null counts as missing -/
def present? : Option Json → Option Json
  | some .null => none
  | k => k

/-- the order of two keys -/
def keyOrder (descending : Bool) (a b : Option Json) : Ordering :=
  match present? a, present? b with
  | none, none => .eq
  | none, some _ => .gt
  | some _, none => .lt
  | some v, some w => if descending then (valueOrder v w).swap else valueOrder v w

/-- an item put into a list whose last item comes first: behind the last one that is not after it -/
def insertFromEnd (isBefore : α → α → Bool) (a : α) : List α → List α
  | [] => [a]
  | b :: bs => if isBefore a b then b :: insertFromEnd isBefore a bs else a :: b :: bs

/-- items in ascending order; an item moves only past items that it is before -/
def sortItems (isBefore : α → α → Bool) (items : List α) : List α :=
  (items.foldl (fun sorted a => insertFromEnd isBefore a sorted) []).reverse

/-- values in the order of their keys -/
def sortBy (key : Json → Option Json) (descending : Bool) (items : List Json) : List Json :=
  sortItems (fun a b => keyOrder descending (key a) (key b) == .lt) items

end Workflows.Json
