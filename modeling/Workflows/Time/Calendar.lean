/-!
# Calendar days

Days since 1970-01-01 and dates of the proleptic Gregorian calendar, for every year.

* `daysOfDate`, `dateOfDays`: between a date and its day number
* `isDate`: whether a month and a day exist in a year
-/

namespace Workflows.Calendar

/-- A date of the proleptic Gregorian calendar. -/
structure Date where
  year : Int
  month : Nat
  day : Nat
  deriving DecidableEq, Repr

def isLeap (year : Int) : Bool := year % 4 = 0 && (year % 100 ≠ 0 || year % 400 = 0)

def daysInMonth (year : Int) (month : Nat) : Nat :=
  if month = 2 then (if isLeap year then 29 else 28)
  else if month = 4 || month = 6 || month = 9 || month = 11 then 30
  else 31

def isDate (year : Int) (month day : Nat) : Bool :=
  1 ≤ month && month ≤ 12 && 1 ≤ day && day ≤ daysInMonth year month

/-- the day number of a date; years run from March, so that the leap day comes last -/
def daysOfDate (d : Date) : Int :=
  let y := if d.month ≤ 2 then d.year - 1 else d.year
  let m : Nat := if d.month ≤ 2 then d.month + 9 else d.month - 3
  let era := y / 400
  let yearOfEra := y % 400
  let dayOfYear : Int := ((153 * m + 2) / 5 : Nat) + d.day - 1
  let dayOfEra := yearOfEra * 365 + yearOfEra / 4 - yearOfEra / 100 + dayOfYear
  era * 146097 + dayOfEra - 719468

/-- the date of a day number -/
def dateOfDays (days : Int) : Date :=
  let z := days + 719468
  let era := z / 146097
  let dayOfEra := z % 146097
  let yearOfEra := (dayOfEra - dayOfEra / 1460 + dayOfEra / 36524 - dayOfEra / 146096) / 365
  let dayOfYear := (dayOfEra - (365 * yearOfEra + yearOfEra / 4 - yearOfEra / 100)).toNat
  let mp := (5 * dayOfYear + 2) / 153
  let day := dayOfYear - (153 * mp + 2) / 5 + 1
  let month := if mp < 10 then mp + 3 else mp - 9
  let year := yearOfEra + era * 400
  ⟨if month ≤ 2 then year + 1 else year, month, day⟩

end Workflows.Calendar
