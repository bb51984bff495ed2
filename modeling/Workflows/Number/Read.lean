import Workflows.Number.Double

/-!
# Numbers read from text

Decimal integers with an optional sign, positions in a list, and decimals that round to the nearest double.
-/

namespace Workflows.Number

/-- the value of decimal digits -/
def digitsValue (cs : List Char) : Nat :=
  cs.foldl (fun n c => n * 10 + (c.toNat - 48)) 0

/-- decimal digits, at least one -/
def readDigits? (cs : List Char) : Option Nat :=
  if cs.isEmpty || !cs.all Char.isDigit then none else some (digitsValue cs)

/-- an optional sign, and whether it was a minus -/
def readSign : List Char → Bool × List Char
  | '-' :: cs => (true, cs)
  | '+' :: cs => (false, cs)
  | cs => (false, cs)

/-- the number of unsigned 64-bit integers: `2^64` -/
def wordCount : Nat := 18446744073709551616

/-- the least and the greatest signed 64-bit integer -/
def minInt64 : Int := -9223372036854775808
def maxInt64 : Int := 9223372036854775807

/-- a signed 64-bit integer -/
def fitsInt64 (n : Int) : Bool := minInt64 ≤ n && n ≤ maxInt64

/-- the signed 64-bit integer with the last 64 bits of a number -/
def wrapInt64 (n : Int) : Int := n.bmod wordCount

/-- a signed 64-bit integer with an optional sign -/
def readInt64? (s : String) : Option Int :=
  let (negative, cs) := readSign s.toList
  match readDigits? cs with
  | some n =>
    let v : Int := if negative then -(n : Int) else n
    if fitsInt64 v then some v else none
  | none => none

/-- a position in a list: unsigned 64 bits, a plus sign allowed -/
def readIndex? (s : String) : Option Nat :=
  let cs := match s.toList with
    | '+' :: cs => cs
    | cs => cs
  match readDigits? cs with
  | some n => if n < wordCount then some n else none
  | none => none

/-- the double nearest to `mantissa × 10^exponent` -/
def scaled (mantissa : Nat) (exponent : Int) : Float :=
  let size := (Nat.toDigits 10 mantissa).length + exponent
  if mantissa = 0 then 0.0
  else if size > 320 then 1.0 / 0.0
  else if size < -340 then 0.0
  else if exponent < 0 then Float.ofScientific mantissa true exponent.natAbs
  else Float.ofScientific mantissa false exponent.toNat

/-- the exponent part of a decimal: nothing, or a mark and a signed number -/
def readExponent? : List Char → Option Int
  | [] => some 0
  | c :: cs =>
    if c == 'e' || c == 'E' then
      let (negative, ds) := readSign cs
      (readDigits? ds).map fun n => if negative then -(n : Int) else n
    else none

/-- an unsigned decimal: digits, point, digits, exponent, with a digit before the exponent -/
def readDecimal? (cs : List Char) : Option Float :=
  let whole := cs.takeWhile Char.isDigit
  let rest := cs.dropWhile Char.isDigit
  let (fraction, tail) := match rest with
    | '.' :: r => (r.takeWhile Char.isDigit, r.dropWhile Char.isDigit)
    | r => ([], r)
  if whole.isEmpty && fraction.isEmpty then none
  else (readExponent? tail).map fun e => scaled (digitsValue (whole ++ fraction)) (e - fraction.length)

/-- a double: an optional sign and a decimal, `inf`, `infinity` or `nan` in any case -/
def readDouble? (s : String) : Option Float :=
  let (negative, cs) := readSign s.toList
  let word := String.ofList (cs.map Char.toLower)
  let magnitude : Option Float :=
    if word = "inf" || word = "infinity" then some (1.0 / 0.0)
    else if word = "nan" then some (0.0 / 0.0)
    else readDecimal? cs
  magnitude.map fun x => if negative then -x else x

end Workflows.Number
