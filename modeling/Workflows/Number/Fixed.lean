import Workflows.Number.Double

/-!
# Doubles with one place

* `Number.tenths`: a magnitude in tenths, rounded to nearest, a half to the even neighbour
* `Number.oneDecimal`: the text with one digit behind the point
-/

namespace Workflows.Number

/-- a magnitude, in smallest positive doubles, as tenths -/
def tenths (magnitude : Nat) : Nat :=
  let q := magnitude * 10 / Double.one
  let rest := magnitude * 10 % Double.one
  if 2 * rest < Double.one then q
  else if Double.one < 2 * rest then q + 1
  else q + q % 2

/-- a double with one digit behind the point -/
def oneDecimal (x : Float) : String :=
  let sign := if Double.isNegative x then "-" else ""
  match Double.magnitude? x with
  | some m => sign ++ toString (tenths m / 10) ++ "." ++ toString (tenths m % 10)
  | none => if x.isNaN then "NaN" else sign ++ "inf"

end Workflows.Number
