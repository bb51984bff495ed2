import Workflows.Number.Double

/-!
# The shortest decimal of a double

Among the decimals that round back to a double the shortest one is chosen, and among those of that length the
one nearest to the double; a tie goes to the even digit.  The search tries 1, 2, … 17 digits.  On each decimal
grid only the two neighbours of the double can be nearest to it, so only these are tested, in exact integer
arithmetic.
-/

namespace Workflows.Number

/-- The positive decimal `d.ddd × 10^exponent`, where `digits` holds all digits and no zero at its end. -/
structure Decimal where
  digits : Nat
  exponent : Int
  deriving DecidableEq, Repr

/-- The reals that round to a double, in quarters of the smallest positive double. -/
structure Interval where
  low : Nat
  mid : Nat
  high : Nat
  /-- the ends round to the double too -/
  closed : Bool

/-- the interval of a positive magnitude -/
def Interval.around (magnitude : Nat) : Interval :=
  let shift := magnitude.log2 - 52
  let ulp := Nat.pow 2 shift
  let significand := magnitude / ulp
  let below := if shift ≥ 1 ∧ significand = Double.fractionCount then ulp else 2 * ulp
  { low := 4 * magnitude - below, mid := 4 * magnitude, high := 4 * magnitude + 2 * ulp,
    closed := significand % 2 = 0 }

/-- whether `p / scale` lies in the interval -/
def Interval.holds (i : Interval) (scale p : Nat) : Bool :=
  if i.closed then i.low * scale ≤ p && p ≤ i.high * scale
  else i.low * scale < p && p < i.high * scale

/-- how many decimal digits a number has -/
def digitCount (n : Nat) : Nat := (Nat.toDigits 10 n).length

/-- the exponent of the first digit of `mid` quarters -/
def Interval.firstExponent (i : Interval) : Int :=
  (digitCount (i.mid * Nat.pow 10 400 / (4 * Double.one)) : Int) - 401

/-- the multiple of `10^place` nearest to the middle that lies in the interval -/
def Interval.gridPoint? (i : Interval) (place : Int) : Option Nat :=
  -- `n * 10^place` becomes `n * step` in quarters of the smallest double, scaled by `scale`
  let scale := Nat.pow 10 (-place).toNat
  let step := Nat.pow 10 place.toNat * (4 * Double.one)
  let floor := i.mid * scale / step
  let below := i.mid * scale - floor * step
  let above := step - below
  let hitFloor := i.holds scale (floor * step)
  let hitNext := i.holds scale ((floor + 1) * step)
  if hitFloor && hitNext then
    some (if below < above || (below == above && floor % 2 == 0) then floor else floor + 1)
  else if hitFloor then some floor
  else if hitNext then some (floor + 1)
  else none

/-- a number without the zeros at its end; `fuel` bounds how many are dropped -/
def dropZeros : Nat → Nat → Nat
  | 0, n => n
  | fuel + 1, n => if n % 10 = 0 then dropZeros fuel (n / 10) else n

def searchDigits (i : Interval) (first : Int) : Nat → Nat → Option Decimal
  | 0, _ => none
  | fuel + 1, count =>
    let place := first - count + 1
    match i.gridPoint? place with
    | some n => some ⟨dropZeros 20 n, place + digitCount n - 1⟩
    | none => searchDigits i first fuel (count + 1)

/-- the shortest decimal of a positive magnitude -/
def shortest (magnitude : Nat) : Decimal :=
  let i := Interval.around magnitude
  (searchDigits i i.firstExponent 18 1).getD ⟨0, 0⟩

end Workflows.Number
