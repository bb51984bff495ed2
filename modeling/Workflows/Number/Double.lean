/-!
# Doubles as exact integers

Every finite double is an integer multiple of the smallest positive one, `2^-1074`.  `units?` gives that
integer and `ofUnits` goes back, so that truncation, remainders and the test for whole numbers are integer
arithmetic.

* `units?`, `ofUnits`: the exact value and back
* `whole?`: the integer that a double equals
* `nearest?`: the nearest integer, halves away from zero
* `remainder`: the rest of a division, with the sign of the dividend
* `floorRemainder`: the rest of a division, with the sign of the divisor
-/

namespace Workflows.Double

/-- how many smallest positive doubles make one -/
def one : Nat := Nat.pow 2 1074

/-- the weight of the sign in the bits of a double: `2^63` -/
def signWeight : Nat := 9223372036854775808

/-- the number of fractions of one exponent: `2^52` -/
def fractionCount : Nat := 4503599627370496

/-- the sign bit -/
def isNegative (x : Float) : Bool := x.toBits.toNat ≥ signWeight

/-- the magnitude of a finite double as a multiple of the smallest positive one -/
def magnitude? (x : Float) : Option Nat :=
  let bits := x.toBits.toNat % signWeight
  let exponent := bits / fractionCount
  let fraction := bits % fractionCount
  if exponent = 2047 then none
  else if exponent = 0 then some fraction
  else some ((fractionCount + fraction) * Nat.pow 2 (exponent - 1))

/-- the exact value of a finite double as a multiple of the smallest positive one -/
def units? (x : Float) : Option Int :=
  (magnitude? x).map fun m => if isNegative x then -(m : Int) else m

/-- the double of a magnitude with at most 53 significant bits -/
def ofMagnitude (m : Nat) : Float :=
  let shift := m.log2 - 52
  Float.ofBits (.ofNat (shift * fractionCount + m / Nat.pow 2 shift))

/-- the double of a multiple of the smallest positive one, with at most 53 significant bits -/
def ofUnits (u : Int) : Float :=
  if u < 0 then -(ofMagnitude u.natAbs) else ofMagnitude u.natAbs

/-- the integer that a double equals -/
def whole? (x : Float) : Option Int :=
  match units? x with
  | some u => if u % one = 0 then some (u / one) else none
  | none => none

/-- the integer part, toward zero -/
def truncate? (x : Float) : Option Int := (units? x).map (·.tdiv one)

/-- the nearest integer, halves away from zero -/
def nearest? (x : Float) : Option Int :=
  (units? x).map fun u =>
    let n := (u.natAbs * 2 + one) / (2 * one)
    if u < 0 then -(n : Int) else n

/-- the rest of `x` after whole multiples of `y`, with the sign of `x`; not a number where it is undefined -/
def remainder (x y : Float) : Float :=
  match magnitude? x, magnitude? y with
  | some a, some b =>
    if b = 0 then 0.0 / 0.0
    else if isNegative x then -(ofMagnitude (a % b)) else ofMagnitude (a % b)
  | some _, none => if y.isNaN then y else x
  | none, _ => 0.0 / 0.0

/-- the rest of `x` after whole multiples of `y`, moved by `y` where the signs differ -/
def floorRemainder (x y : Float) : Float :=
  let r := remainder x y
  if r != 0.0 && ((r < 0.0) != (y < 0.0)) then r + y else r

end Workflows.Double
