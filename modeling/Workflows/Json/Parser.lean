import Workflows.Json.Basic
import Workflows.Number.Read

/-!
# Reading JSON text

A reader for the standard grammar, with at most 127 nested arrays and objects.  Members are kept as written, in
their order and with repeated keys, because a repeated field of a record is an error; `Json.canonical` turns
what was read into a value.

The digits of a number form an unsigned 64-bit significand for as long as they fit.  An integer that fits
64 bits is an integer.  Any other number is the significand as a double, scaled by one power of ten.
-/

namespace Workflows.Json

/-! ### numbers -/

/-- A number being read: the digits so far and the power of ten that scales them. -/
structure Scan where
  significand : Nat
  exponent : Int
  /-- a digit did not fit -/
  full : Bool

/-- one more digit before the point -/
def Scan.whole (s : Scan) (c : Char) : Scan :=
  let next := s.significand * 10 + (c.toNat - 48)
  if s.full || next ≥ Number.wordCount then { s with exponent := s.exponent + 1, full := true }
  else { s with significand := next }

/-- one more digit after the point -/
def Scan.fraction (s : Scan) (c : Char) : Scan :=
  let next := s.significand * 10 + (c.toNat - 48)
  if s.full || next ≥ Number.wordCount then { s with full := true }
  else { s with significand := next, exponent := s.exponent - 1 }

/-- a double scaled by a power of ten, in steps that have an exact table; nothing where it overflows -/
def scaleBy : Nat → Float → Int → Option Float
  | 0, x, _ => some x
  | fuel + 1, x, e =>
    if e.natAbs ≤ 308 then
      let power := Float.ofScientific 1 false e.natAbs
      let y := if e < 0 then x / power else x * power
      if y.isFinite then some y else none
    else if x == 0.0 then some x
    else if e > 0 then none
    else scaleBy fuel (x / Float.ofScientific 1 false 308) (e + 308)

/-- the number with the scanned digits -/
def Scan.double? (s : Scan) (negative : Bool) (exponent : Int) : Option Json :=
  (scaleBy 8 (Float.ofNat s.significand) (s.exponent + exponent)).map fun x =>
    .double (if negative then -x else x)

/-- the value of a number without point and exponent -/
def Scan.integer? (s : Scan) (negative : Bool) : Option Json :=
  if s.full then s.double? negative 0
  else if !negative then some (.int s.significand)
  else if s.significand = 0 || s.significand > 9223372036854775808 then some (.double (-(Float.ofNat s.significand)))
  else some (.int (-(s.significand : Int)))

/-- the exponent after its mark -/
def readPower? (cs : List Char) : Option (Int × List Char) :=
  let (negative, ds) := Number.readSign cs
  let digits := ds.takeWhile Char.isDigit
  if digits.isEmpty then none
  else
    let n := Number.digitsValue digits
    some (if negative then -(n : Int) else n, ds.dropWhile Char.isDigit)

/-- what follows the digits before the point -/
def readNumberTail? (s : Scan) (negative : Bool) (cs : List Char) : Option (Json × List Char) :=
  let point : Option (Option Scan × List Char) := match cs with
    | '.' :: r =>
      let digits := r.takeWhile Char.isDigit
      if digits.isEmpty then none
      else some (some (digits.foldl Scan.fraction { s with full := false }), r.dropWhile Char.isDigit)
    | r => some (none, r)
  match point with
  | none => none
  | some (fraction, rest) =>
    let mark := match rest with
      | c :: r => if c = 'e' || c = 'E' then some r else none
      | [] => none
    match mark, fraction with
    | some r, f => match readPower? r with
      | some (e, rest) => ((f.getD s).double? negative e).map (·, rest)
      | none => none
    | none, some f => (f.double? negative 0).map (·, rest)
    | none, none => (s.integer? negative).map (·, rest)

/-- a number -/
def readNumber? (cs : List Char) : Option (Json × List Char) :=
  let (negative, ds) := match cs with
    | '-' :: r => (true, r)
    | r => (false, r)
  match ds with
  | '0' :: c :: r =>
    if c.isDigit then none else readNumberTail? ⟨0, 0, false⟩ negative (c :: r)
  | '0' :: [] => readNumberTail? ⟨0, 0, false⟩ negative []
  | _ =>
    let digits := ds.takeWhile Char.isDigit
    if digits.isEmpty then none
    else readNumberTail? (digits.foldl Scan.whole ⟨0, 0, false⟩) negative (ds.dropWhile Char.isDigit)

/-! ### strings -/

def hexValue? (c : Char) : Option Nat :=
  if '0' ≤ c && c ≤ '9' then some (c.toNat - 48)
  else if 'a' ≤ c && c ≤ 'f' then some (c.toNat - 87)
  else if 'A' ≤ c && c ≤ 'F' then some (c.toNat - 55)
  else none

/-- four hexadecimal digits -/
def hexUnit? (a b c d : Char) : Option Nat :=
  match hexValue? a, hexValue? b, hexValue? c, hexValue? d with
  | some a, some b, some c, some d => some (((a * 16 + b) * 16 + c) * 16 + d)
  | _, _, _, _ => none

/-- the character of a one-letter escape -/
def escaped? : Char → Option Char
  | '"' => some '"'
  | '\\' => some '\\'
  | '/' => some '/'
  | 'b' => some (Char.ofNat 8)
  | 'f' => some (Char.ofNat 12)
  | 'n' => some '\n'
  | 'r' => some '\r'
  | 't' => some '\t'
  | _ => none

/-- the characters up to the closing quote, and the rest -/
def readChars? : List Char → Option (List Char × List Char)
  | [] => none
  | '"' :: r => some ([], r)
  | '\\' :: 'u' :: a :: b :: c :: d :: '\\' :: 'u' :: e :: f :: g :: h :: r =>
    match hexUnit? a b c d with
    | none => none
    | some high =>
      if 0xD800 ≤ high && high < 0xDC00 then
        match hexUnit? e f g h with
        | some low =>
          if 0xDC00 ≤ low && low < 0xE000 then
            (readChars? r).map fun p =>
              (Char.ofNat (0x10000 + (high - 0xD800) * 1024 + (low - 0xDC00)) :: p.1, p.2)
          else none
        | none => none
      else if 0xDC00 ≤ high && high < 0xE000 then none
      else (readChars? ('\\' :: 'u' :: e :: f :: g :: h :: r)).map fun p => (Char.ofNat high :: p.1, p.2)
  | '\\' :: 'u' :: a :: b :: c :: d :: r =>
    match hexUnit? a b c d with
    | some unit =>
      if 0xD800 ≤ unit && unit < 0xE000 then none
      else (readChars? r).map fun p => (Char.ofNat unit :: p.1, p.2)
    | none => none
  | '\\' :: c :: r =>
    match escaped? c with
    | some e => (readChars? r).map fun p => (e :: p.1, p.2)
    | none => none
  | c :: r =>
    if c.toNat < 32 || c = '\\' then none
    else (readChars? r).map fun p => (c :: p.1, p.2)

/-! ### values -/

def isSpace (c : Char) : Bool := c = ' ' || c = '\n' || c = '\t' || c = '\r'

def skipSpace (cs : List Char) : List Char := cs.dropWhile isSpace

/-- the rest after a fixed word -/
def afterWord? (word : String) (cs : List Char) : Option (List Char) :=
  if word.toList.isPrefixOf cs then some (cs.drop word.length) else none

mutual
/-- a value after blanks; `depth` more levels may be opened -/
def readValue? : Nat → Nat → List Char → Option (Json × List Char)
  | 0, _, _ => none
  | fuel + 1, depth, cs =>
    match skipSpace cs with
    | 'n' :: r => (afterWord? "ull" r).map (.null, ·)
    | 't' :: r => (afterWord? "rue" r).map (.bool true, ·)
    | 'f' :: r => (afterWord? "alse" r).map (.bool false, ·)
    | '"' :: r => (readChars? r).map fun p => (.str (String.ofList p.1), p.2)
    | '[' :: r =>
      if depth = 0 then none
      else match skipSpace r with
        | ']' :: r => some (.arr [], r)
        | r => (readItems? fuel (depth - 1) r).map fun p => (.arr p.1, p.2)
    | '\x7b' :: r =>
      if depth = 0 then none
      else match skipSpace r with
        | '\x7d' :: r => some (.obj [], r)
        | r => (readMembers? fuel (depth - 1) r).map fun p => (.obj p.1, p.2)
    | r => readNumber? r

/-- items up to the closing bracket, at least one -/
def readItems? : Nat → Nat → List Char → Option (List Json × List Char)
  | 0, _, _ => none
  | fuel + 1, depth, cs =>
    match readValue? fuel depth cs with
    | none => none
    | some (v, r) => match skipSpace r with
      | ',' :: r => (readItems? fuel depth r).map fun p => (v :: p.1, p.2)
      | ']' :: r => some ([v], r)
      | _ => none

/-- members up to the closing brace, at least one -/
def readMembers? : Nat → Nat → List Char → Option (List (String × Json) × List Char)
  | 0, _, _ => none
  | fuel + 1, depth, cs =>
    match skipSpace cs with
    | '"' :: r => match readChars? r with
      | none => none
      | some (k, r) => match skipSpace r with
        | ':' :: r => match readValue? fuel depth r with
          | none => none
          | some (v, r) => match skipSpace r with
            | ',' :: r => (readMembers? fuel depth r).map fun p => ((String.ofList k, v) :: p.1, p.2)
            | '\x7d' :: r => some ([(String.ofList k, v)], r)
            | _ => none
        | _ => none
    | _ => none
end

/-- the value written by a text, members as written -/
def readRaw? (s : String) : Option Json :=
  let cs := s.toList
  match readValue? (2 * cs.length + 2) 127 cs with
  | some (v, r) => if (skipSpace r).isEmpty then some v else none
  | none => none

mutual
/-- objects in key order, the last of repeated members kept -/
def canonical : Json → Json
  | .arr items => .arr (canonicalItems items)
  | .obj members => .obj (Dict.ofList (canonicalMembers members))
  | v => v

def canonicalItems : List Json → List Json
  | [] => []
  | v :: vs => canonical v :: canonicalItems vs

def canonicalMembers : List (String × Json) → List (String × Json)
  | [] => []
  | (k, v) :: es => (k, canonical v) :: canonicalMembers es
end

/-- the value written by a text -/
def read? (s : String) : Option Json := (readRaw? s).map canonical

end Workflows.Json
