import Workflows.Time.Calendar

/-!
# Dates and day numbers

A day number is taken apart into eras of 400 years, centuries, groups of four years and years, each year from March
to February.  Only the last year of a group has a leap day, at its end, and only the last group of an era has one at
the end of a century.

* `DayOfEra`          a day of an era, taken apart
* `exists_dayOfEra`   every day of an era can be taken apart

Main statements: the date of a day number exists, and has this number (`isDate_dateOfDays`, `daysOfDate_dateOfDays`).
-/

namespace Workflows.Calendar

/-- Day `u` of year `a` of group `j` of century `c` is day `n` of its era. -/
structure DayOfEra (n c j a u : Int) : Prop where
  eq : n = 36524 * c + 1461 * j + 365 * a + u
  century : 0 ≤ c ∧ c ≤ 3
  group : 0 ≤ j ∧ j ≤ 24
  year : 0 ≤ a ∧ a ≤ 3
  day : 0 ≤ u ∧ u ≤ 365
  leap : u = 365 → a = 3 ∧ (j = 24 → c = 3)

theorem exists_dayOfEra {n : Int} (h0 : 0 ≤ n) (h : n < 146097) : ∃ c j a u, DayOfEra n c j a u := by
  by_cases hlast : n = 146096
  · exact ⟨3, 24, 3, 365, by omega, by omega, by omega, by omega, by omega, by omega⟩
  · by_cases hleap : (n % 36524) % 1461 = 1460
    · refine ⟨n / 36524, (n % 36524) / 1461, 3, 365, ?_, ?_, ?_, ?_, ?_, ?_⟩ <;> omega
    · refine ⟨n / 36524, (n % 36524) / 1461, (n % 36524) % 1461 / 365, (n % 36524) % 1461 % 365, ?_, ?_, ?_, ?_, ?_, ?_⟩
        <;> omega

namespace DayOfEra
variable {n c j a u : Int}

theorem fourths (h : DayOfEra n c j a u) : (100 * c + 4 * j + a) / 4 = 25 * c + j := by
  have ha := h.year
  omega

theorem hundredths (h : DayOfEra n c j a u) : (100 * c + 4 * j + a) / 100 = c := by
  have hj := h.group
  have ha := h.year
  omega

/-- the years of an era before a day of it -/
theorem yearOfEra (h : DayOfEra n c j a u) :
    (n - n / 1460 + n / 36524 - n / 146096) / 365 = 100 * c + 4 * j + a := by
  obtain ⟨heq, hc, hj, ha, hu, hleap⟩ := h
  by_cases hlast : n = 146096
  · omega
  · have hcentury : n / 36524 = c := by omega
    have hera : n / 146096 = 0 := by omega
    have hgroup : n / 1460 = 25 * c + j ∨ (n / 1460 = 25 * c + j + 1 ∧ a = 3 ∧ 0 < u) := by omega
    omega

/-- the days of an era before a year of it -/
theorem dayOfYear (h : DayOfEra n c j a u) : n - (365 * (100 * c + 4 * j + a) + (100 * c + 4 * j + a) / 4 -
    (100 * c + 4 * j + a) / 100) = u := by
  rw [h.fourths, h.hundredths, h.eq]
  omega

/-- only a leap year has a leap day -/
theorem isLeap (h : DayOfEra n c j a u) (hu : u = 365) (era : Int) :
    isLeap (100 * c + 4 * j + a + era * 400 + 1) = true := by
  obtain ⟨ha, hlast⟩ := h.leap hu
  have hc := h.century
  have hj := h.group
  have hfour : (100 * c + 4 * j + a + era * 400 + 1) % 4 = 0 := by omega
  have hcentury : (100 * c + 4 * j + a + era * 400 + 1) % 100 ≠ 0 ∨
      (100 * c + 4 * j + a + era * 400 + 1) % 400 = 0 := by omega
  simp only [Calendar.isLeap, hfour, decide_true, Bool.true_and, Bool.or_eq_true, decide_eq_true_eq]
  exact hcentury

end DayOfEra

/-- the month of day `u` of a year that begins with March, and the day of the month -/
def monthOf (u : Nat) : Nat := if (5 * u + 2) / 153 < 10 then (5 * u + 2) / 153 + 3 else (5 * u + 2) / 153 - 9

def dayOf (u : Nat) : Nat := u - (153 * ((5 * u + 2) / 153) + 2) / 5 + 1

/-- how many days of a year that begins with March come before a month -/
def daysBefore (month : Nat) : Nat := (153 * (if month ≤ 2 then month + 9 else month - 3) + 2) / 5

theorem monthOf_bounds : ∀ u < 366, 1 ≤ monthOf u ∧ monthOf u ≤ 12 := by decide +kernel

theorem dayOf_bounds : ∀ u < 366, 1 ≤ dayOf u ∧ dayOf u ≤ 31 ∧
    (monthOf u = 4 ∨ monthOf u = 6 ∨ monthOf u = 9 ∨ monthOf u = 11 → dayOf u ≤ 30) ∧
    (monthOf u = 2 → dayOf u ≤ 28 ∨ dayOf u = 29 ∧ u = 365) := by
  decide +kernel

theorem monthOf_le_two : ∀ u < 366, monthOf u ≤ 2 ↔ 306 ≤ u := by decide +kernel

theorem daysBefore_monthOf : ∀ u < 366, daysBefore (monthOf u) + dayOf u = u + 1 := by decide +kernel

/-- the date of a day number by the parts of its day of an era -/
theorem dateOfDays_eq {days c j a u : Int} (h : DayOfEra ((days + 719468) % 146097) c j a u) :
    dateOfDays days = ⟨(100 * c + 4 * j + a + (days + 719468) / 146097 * 400) + (if monthOf u.toNat ≤ 2 then 1 else 0),
      monthOf u.toNat, dayOf u.toNat⟩ := by
  unfold dateOfDays
  simp only [h.yearOfEra, h.dayOfYear]
  show (⟨if monthOf u.toNat ≤ 2 then _ else _, monthOf u.toNat, dayOf u.toNat⟩ : Date) = _
  congr 1
  split
  · rfl
  · rw [Int.add_zero]

theorem daysOfDate_dateOfDays (days : Int) : daysOfDate (dateOfDays days) = days := by
  obtain ⟨c, j, a, u, h⟩ := exists_dayOfEra (Int.emod_nonneg (days + 719468) (by decide))
    (Int.emod_lt_of_pos (days + 719468) (by decide))
  have hera := Int.mul_ediv_add_emod (days + 719468) 146097
  have hmonth := daysBefore_monthOf u.toNat (by have := h.day; omega)
  rw [dateOfDays_eq h]
  generalize (days + 719468) / 146097 = era at hera
  have hyear : (if monthOf u.toNat ≤ 2 then (100 * c + 4 * j + a + era * 400) + (if monthOf u.toNat ≤ 2 then 1 else 0) - 1
      else (100 * c + 4 * j + a + era * 400) + (if monthOf u.toNat ≤ 2 then 1 else 0)) = 100 * c + 4 * j + a + era * 400 := by
    split
    · omega
    · omega
  have hdiv : (100 * c + 4 * j + a + era * 400) / 400 = era := by
    have := h.century; have := h.group; have := h.year
    omega
  have hmod : (100 * c + 4 * j + a + era * 400) % 400 = 100 * c + 4 * j + a := by
    have := h.century; have := h.group; have := h.year
    omega
  unfold daysOfDate
  simp only [hyear, hdiv, hmod, h.fourths, h.hundredths]
  show era * 146097 + ((100 * c + 4 * j + a) * 365 + (25 * c + j) - c + ((daysBefore (monthOf u.toNat) : Int) +
    dayOf u.toNat - 1)) - 719468 = days
  have heq := h.eq
  have hday := h.day
  omega

theorem isDate_dateOfDays (days : Int) :
    isDate (dateOfDays days).year (dateOfDays days).month (dateOfDays days).day = true := by
  obtain ⟨c, j, a, u, h⟩ := exists_dayOfEra (Int.emod_nonneg (days + 719468) (by decide))
    (Int.emod_lt_of_pos (days + 719468) (by decide))
  have hu : u.toNat < 366 := by have := h.day; omega
  have hmonth := monthOf_bounds u.toNat hu
  obtain ⟨hfirst, hlast, hshort, hfebruary⟩ := dayOf_bounds u.toNat hu
  rw [dateOfDays_eq h]
  have hin : dayOf u.toNat ≤ daysInMonth
      ((100 * c + 4 * j + a + (days + 719468) / 146097 * 400) + (if monthOf u.toNat ≤ 2 then 1 else 0))
      (monthOf u.toNat) := by
    unfold daysInMonth
    split
    · next hm =>
      have hnext : (if monthOf u.toNat ≤ 2 then (1 : Int) else 0) = 1 := if_pos (by omega)
      rw [hnext]
      rcases hfebruary hm with hday | ⟨hday, hleap⟩
      · split <;> omega
      · rw [h.isLeap (by have := h.day; omega), if_pos rfl]
        exact Nat.le_of_eq hday
    · split
      · next hm =>
        simp only [Bool.or_eq_true, decide_eq_true_eq] at hm
        exact hshort (by omega)
      · exact hlast
  simp only [isDate, hmonth, hfirst, hin, decide_true, Bool.and_self]

theorem two_digits_of_isDate {year : Int} {month day : Nat} (h : isDate year month day = true) :
    month < 100 ∧ day < 100 := by
  simp only [isDate, Bool.and_eq_true, decide_eq_true_eq] at h
  obtain ⟨⟨⟨-, hmonth⟩, -⟩, hday⟩ := h
  have hlong : daysInMonth year month ≤ 31 := by
    unfold daysInMonth
    split
    · split <;> omega
    · split <;> omega
  omega

/-- dates lie between the dates of two day numbers if their day numbers do; here for a first and a last year -/
theorem year_dateOfDays {days : Int} (hfirst : daysOfDate ⟨-262143, 1, 1⟩ ≤ days)
    (hlast : days ≤ daysOfDate ⟨262142, 12, 31⟩) :
    -262143 ≤ (dateOfDays days).year ∧ (dateOfDays days).year ≤ 262142 := by
  obtain ⟨c, j, a, u, h⟩ := exists_dayOfEra (Int.emod_nonneg (days + 719468) (by decide))
    (Int.emod_lt_of_pos (days + 719468) (by decide))
  have hu := h.day
  have hnew := monthOf_le_two u.toNat (by omega)
  have hbegin : daysOfDate ⟨-262143, 1, 1⟩ = -96465292 := by decide
  have hend : daysOfDate ⟨262142, 12, 31⟩ = 95026236 := by decide
  rw [hbegin] at hfirst
  rw [hend] at hlast
  rw [dateOfDays_eq h]
  have hera := Int.mul_ediv_add_emod (days + 719468) 146097
  have heq := h.eq
  have hc := h.century
  have hj := h.group
  have ha := h.year
  generalize (days + 719468) / 146097 = era at hera
  generalize (days + 719468) % 146097 = n at hera heq
  clear h hbegin hend
  -- the last year is year 142 of its era, and the first one is year 257
  have hlastEra : era ≤ 654 ∨ era = 655 ∧ (c = 0 ∨ c = 1 ∧ j ≤ 10) := by omega
  have hfirstEra : -655 ≤ era ∨ era = -656 ∧ (c = 3 ∨ c = 2 ∧ 14 ≤ j) := by omega
  simp only
  split
  · next hm =>
    have hlate := hnew.mp hm
    omega
  · next hm =>
    have hearly := mt hnew.mpr hm
    omega

end Workflows.Calendar
