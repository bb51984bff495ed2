import Workflows.Time.Calendar
import Workflows.Text.Class

/-!
# Points in time

A point in time is its second since 1970-01-01T00:00:00Z and the nanoseconds within that second; a leap second
has a thousand million nanoseconds or more.  Texts are read and written in the date-time form
`2030-01-01T00:00:00Z`.

* `Instant.read?`: the lenient form of stored records, with short numbers and blanks between the parts
* `Instant.readStrict?`: the form of settings, every part in its full width
* `Instant.write`: the text, with as many groups of three digits of the fraction as are needed
* `Instant.addMillis?`: a later or earlier point, within the supported years
-/

namespace Workflows

/-- A point in time. -/
structure Instant where
  seconds : Int
  nanos : Nat
  deriving DecidableEq, Repr, Inhabited

namespace Instant
open Calendar Text

def before (a b : Instant) : Bool :=
  a.seconds < b.seconds || (a.seconds == b.seconds && a.nanos < b.nanos)

def atOrBefore (a b : Instant) : Bool := !before b a

/-- the first and the last year of the supported range -/
def firstYear : Int := -262143
def lastYear : Int := 262142

/-- the seconds that lie in the supported years -/
def inRange (seconds : Int) : Bool :=
  daysOfDate ⟨firstYear, 1, 1⟩ * 86400 ≤ seconds && seconds < (daysOfDate ⟨lastYear, 12, 31⟩ + 1) * 86400

/-- nanoseconds since the epoch -/
def totalNanos (t : Instant) : Int := t.seconds * 1000000000 + t.nanos

def ofTotalNanos (n : Int) : Instant := ⟨n / 1000000000, (n % 1000000000).toNat⟩

/-- whole milliseconds from `a` to `b`, toward zero -/
def millisBetween (a b : Instant) : Int := (b.totalNanos - a.totalNanos).tdiv 1000000

/-- the point `n` nanoseconds later -/
def addNanos (t : Instant) (n : Nat) : Instant := ofTotalNanos (t.totalNanos + n)

/-- the point some milliseconds later, if it lies in the supported years -/
def addMillis? (t : Instant) (millis : Int) : Option Instant :=
  let u := ofTotalNanos (t.totalNanos + millis * 1000000)
  if inRange u.seconds then some u else none

/-! ### writing -/

/-- a number in a fixed width, filled with zeros -/
def padded (width n : Nat) : String :=
  let digits := Nat.toDigits 10 n
  String.ofList (List.replicate (width - digits.length) '0' ++ digits)

/-- a year in four digits, with a sign outside 0 to 9999 -/
def yearText (year : Int) : String :=
  if 0 ≤ year && year ≤ 9999 then padded 4 year.toNat
  else (if year < 0 then "-" else "+") ++ padded 4 year.natAbs

/-- the fraction of a second in no, three, six or nine digits -/
def fractionText (nanos : Nat) : String :=
  if nanos = 0 then ""
  else if nanos % 1000000 = 0 then "." ++ padded 3 (nanos / 1000000)
  else if nanos % 1000 = 0 then "." ++ padded 6 (nanos / 1000)
  else "." ++ padded 9 nanos

/-- date and time, with `zone` at the end -/
def writeWith (zone : String) (t : Instant) : String :=
  let date := dateOfDays (t.seconds / 86400)
  let second := (t.seconds % 86400).toNat
  yearText date.year ++ "-" ++ padded 2 date.month ++ "-" ++ padded 2 date.day ++ "T" ++
    padded 2 (second / 3600) ++ ":" ++ padded 2 (second / 60 % 60) ++ ":" ++
    padded 2 (second % 60 + t.nanos / 1000000000) ++ fractionText (t.nanos % 1000000000) ++ zone

/-- the text in stored records and variables -/
def write (t : Instant) : String := writeWith "Z" t

/-! ### reading -/

/-- a number of `least` to `most` digits, and the rest -/
def readNumber? (least most : Nat) (cs : List Char) : Option (Nat × List Char) :=
  let digits := (cs.take most).takeWhile Char.isDigit
  if digits.length < least || digits.isEmpty then none
  else some (digits.foldl (fun n c => n * 10 + (c.toNat - 48)) 0, cs.drop digits.length)

/-- a fixed character, and the rest -/
def readChar? (c : Char) : List Char → Option (List Char)
  | d :: cs => if d = c then some cs else none
  | [] => none

/-- the nanoseconds of a fraction; digits after the ninth are dropped -/
def readFraction? : List Char → Option (Nat × List Char)
  | '.' :: cs =>
    match readNumber? 1 9 cs with
    | some (n, rest) =>
      let width := cs.length - rest.length
      some (n * Nat.pow 10 (9 - width), rest.dropWhile Char.isDigit)
    | none => none
  | cs => some (0, cs)

/-- the mark between date and time -/
def readMark? : List Char → Option (List Char)
  | 'T' :: cs | 't' :: cs | ' ' :: cs => some cs
  | _ => none

/-- an offset from UTC in seconds; `separator` passes what stands between hours and minutes -/
def readOffset? (separator : List Char → Option (List Char)) : List Char → Option (Int × List Char)
  | [] => none
  | c :: cs =>
    if c = 'Z' || c = 'z' then some (0, cs)
    else if c = '+' || c = '-' || c.toNat = 0x2212 then
      match readNumber? 2 2 cs with
      | none => none
      | some (hours, rest) => match separator rest with
        | none => none
        | some rest => match readNumber? 2 2 rest with
          | none => none
          | some (minutes, rest) =>
            let seconds : Int := hours * 3600 + minutes * 60
            if minutes < 60 then some (if c = '+' then seconds else -seconds, rest) else none
    else none

/-- the point with these parts, if they form a date, a time of day and an offset of less than a day -/
def ofParts? (year : Int) (month day hour minute second nanos : Nat) (offset : Int) : Option Instant :=
  if isDate year month day && firstYear ≤ year && year ≤ lastYear && hour < 24 && minute < 60 && second ≤ 60 &&
      -86400 < offset && offset < 86400 then
    let leap := second = 60
    let inDay : Int := hour * 3600 + minute * 60 + (if leap then 59 else second)
    let t : Instant :=
      ⟨daysOfDate ⟨year, month, day⟩ * 86400 + inDay - offset, if leap then nanos + 1000000000 else nanos⟩
    if inRange t.seconds then some t else none
  else none

/-- the strict form -/
def readStrictChars? (cs : List Char) : Option Instant := do
  let (year, cs) ← readNumber? 4 4 cs
  let (month, cs) ← readNumber? 2 2 (← readChar? '-' cs)
  let (day, cs) ← readNumber? 2 2 (← readChar? '-' cs)
  let (hour, cs) ← readNumber? 2 2 (← readMark? cs)
  let (minute, cs) ← readNumber? 2 2 (← readChar? ':' cs)
  let (second, cs) ← readNumber? 2 2 (← readChar? ':' cs)
  let (nanos, cs) ← readFraction? cs
  let (offset, cs) ← readOffset? (readChar? ':') cs
  if cs.isEmpty then ofParts? year month day hour minute second nanos offset else none

def readStrict? (s : String) : Option Instant := readStrictChars? s.toList

def skipBlank (cs : List Char) : List Char := cs.dropWhile isBlank

/-- a year of at most four digits, or of any length after a sign -/
def readYear? (cs : List Char) : Option (Int × List Char) :=
  match cs with
  | '-' :: r => (readNumber? 1 18 r).map fun p => (-(p.1 : Int), p.2)
  | '+' :: r => (readNumber? 1 18 r).map fun p => ((p.1 : Int), p.2)
  | r => (readNumber? 1 4 r).map fun p => ((p.1 : Int), p.2)

/-- a number of one or two digits after blanks -/
def readShort? (cs : List Char) : Option (Nat × List Char) := readNumber? 1 2 (skipBlank cs)

/-- hours and minutes of an offset may be apart by colons and blanks -/
def skipColons (cs : List Char) : List Char := cs.dropWhile fun c => c = ':' || isBlank c

/-- an offset, or the letters `UTC` -/
def readZone? (cs : List Char) : Option (Int × List Char) :=
  if ['u', 't', 'c'].isPrefixOf (cs.map Char.toLower) then some (0, cs.drop 3)
  else readOffset? (fun r => some (skipColons r)) cs

/-- the lenient form -/
def readChars? (cs : List Char) : Option Instant := do
  let (year, cs) ← readYear? (skipBlank cs)
  let (month, cs) ← readShort? (← readChar? '-' (skipBlank cs))
  let (day, cs) ← readShort? (← readChar? '-' (skipBlank cs))
  let (hour, cs) ← readShort? (← readMark? cs)
  let (minute, cs) ← readShort? (← readChar? ':' (skipBlank cs))
  let (second, cs) ← readShort? (← readChar? ':' (skipBlank cs))
  let (nanos, cs) ← readFraction? cs
  let (offset, cs) ← readZone? (skipBlank cs)
  if (skipBlank cs).isEmpty then ofParts? year month day hour minute second nanos offset else none

def read? (s : String) : Option Instant := readChars? s.toList

end Instant
end Workflows
