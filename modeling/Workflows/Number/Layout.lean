import Workflows.Number.Shortest

/-!
# Written doubles

A layout fixes the free choices in writing the shortest decimal of a double: which exponents are written
positionally, and whether a whole number keeps `.0`.
-/

namespace Workflows.Number

/-- How doubles are written. -/
structure Layout where
  /-- the exponents of the first digit that are written positionally; all of them if there is no range -/
  positional : Option (Int × Int)
  /-- whole numbers end in `.0` -/
  pointZero : Bool

/-- the digits of a decimal written positionally -/
def positionalText (pointZero : Bool) (d : Decimal) : String :=
  let digits := (Nat.toDigits 10 d.digits)
  let before := d.exponent + 1
  if before ≤ 0 then
    "0." ++ String.ofList (List.replicate (-before).toNat '0' ++ digits)
  else
    let whole := digits.take before.toNat
    let zeros := List.replicate (before.toNat - digits.length) '0'
    let fraction := digits.drop before.toNat
    let head := String.ofList (whole ++ zeros)
    if fraction.isEmpty then (if pointZero then head ++ ".0" else head)
    else head ++ "." ++ String.ofList fraction

/-- the digits of a decimal with a signed exponent -/
def scientificText (d : Decimal) : String :=
  let digits := Nat.toDigits 10 d.digits
  let tail := match digits.drop 1 with
    | [] => ""
    | ds => "." ++ String.ofList ds
  let sign := if d.exponent < 0 then "-" else "+"
  String.ofList (digits.take 1) ++ tail ++ "e" ++ sign ++ toString d.exponent.natAbs

def Layout.decimal (l : Layout) (d : Decimal) : String :=
  match l.positional with
  | none => positionalText l.pointZero d
  | some (low, high) =>
    if low ≤ d.exponent && d.exponent < high then positionalText l.pointZero d else scientificText d

/-- a double in this layout -/
def Layout.write (l : Layout) (x : Float) : String :=
  match Double.magnitude? x with
  | none => if x.isNaN then "NaN" else if Double.isNegative x then "-inf" else "inf"
  | some m =>
    let sign := if Double.isNegative x then "-" else ""
    if m = 0 then sign ++ (if l.pointZero then "0.0" else "0")
    else sign ++ l.decimal (shortest m)

/-- Values: positional from `0.00001` up to sixteen digits before the point, and always recognisable as a double. -/
def valueLayout : Layout := ⟨some (-5, 16), true⟩

/-- Prose: always positional, and whole numbers look like integers. -/
def proseLayout : Layout := ⟨none, false⟩

end Workflows.Number
