import Mathlib.Algebra.Group.Nat.Defs
import Workflows.Proofs.Time.Calendar
import Workflows.Time.Instant

/-!
# Points in time as text

* `Instant.Representable`   a point of the supported years, where only the last second of a minute may be a leap second
* `readNumber?_digits`      a run of digits is read as its number

Main statement: a point in time is read back from its text (`Instant.read?_write`).
-/

namespace Workflows.Instant
open Calendar Text

/-! ## Numbers -/

/-- the number that digits stand for, as readers compute it -/
theorem foldl_digits (ds : List Char) (init : Nat) :
    ds.foldl (fun n c => n * 10 + (c.toNat - 48)) init = Nat.ofDigitChars 10 ds init := by
  induction ds generalizing init with
  | nil => rw [List.foldl_nil, Nat.ofDigitChars_nil]
  | cons c ds ih =>
    rw [List.foldl_cons, Nat.ofDigitChars_cons, ih, Nat.mul_comm]
    rfl

theorem readNumber?_digits {least most : Nat} {ds rest : List Char} (hdigits : ∀ c ∈ ds, c.isDigit = true)
    (hleast : least ≤ ds.length) (hmost : ds.length ≤ most) (hsome : ds ≠ [])
    (hstop : ds.length = most ∨ ∀ c cs, rest = c :: cs → c.isDigit = false) :
    readNumber? least most (ds ++ rest) = some (Nat.ofDigitChars 10 ds 0, rest) := by
  have htake : ((ds ++ rest).take most).takeWhile Char.isDigit = ds := by
    rw [List.take_append, List.take_of_length_le hmost, List.takeWhile_append_of_pos hdigits]
    have hnone : (rest.take (most - ds.length)).takeWhile Char.isDigit = [] := by
      rcases hstop with heq | hstop
      · rw [heq, Nat.sub_self]
        rfl
      · cases hk : most - ds.length with
        | zero => rfl
        | succ k =>
          cases rest with
          | nil => rfl
          | cons c cs => rw [List.take_succ_cons, List.takeWhile_cons, hstop c cs rfl]; rfl
    rw [hnone, List.append_nil]
  have hempty : ds.isEmpty = false := by
    cases ds with
    | nil => exact absurd rfl hsome
    | cons c ds => rfl
  unfold readNumber?
  simp only [htake, hempty, Nat.not_lt.mpr hleast, decide_false, Bool.or_self, foldl_digits, List.drop_left]
  rfl

/-! ### padded numbers -/

theorem toList_padded (width n : Nat) :
    (padded width n).toList = List.replicate (width - (Nat.toDigits 10 n).length) '0' ++ Nat.toDigits 10 n :=
  String.toList_ofList

theorem isDigit_padded {width n : Nat} : ∀ c ∈ (padded width n).toList, c.isDigit = true := by
  intro c hc
  rw [toList_padded] at hc
  rcases List.mem_append.mp hc with hzero | hdigit
  · rw [(List.mem_replicate.mp hzero).2]
    rfl
  · exact Nat.isDigit_of_mem_toDigits (by decide) (by decide) hdigit

theorem ofDigitChars_padded (width n : Nat) : Nat.ofDigitChars 10 (padded width n).toList 0 = n := by
  rw [toList_padded, Nat.ofDigitChars_append, Nat.ofDigitChars_replicate_zero, Nat.mul_zero,
    Nat.ofDigitChars_ten_toDigits]

theorem length_padded {width n k : Nat} (hk : 0 < k) (hwidth : width ≤ k) (h : n < 10 ^ k) :
    width ≤ (padded width n).toList.length ∧ (padded width n).toList.length ≤ k := by
  have hdigits := (Nat.length_toDigits_le_iff (b := 10) (by decide) hk).mpr h
  rw [toList_padded, List.length_append, List.length_replicate]
  omega

theorem padded_ne_nil (width n : Nat) : (padded width n).toList ≠ [] := by
  rw [toList_padded]
  simp

theorem not_blank_of_isDigit {c : Char} (h : c.isDigit = true) : isBlank c = false := by
  obtain ⟨hlow, hhigh⟩ : 48 ≤ c.toNat ∧ c.toNat ≤ 57 := Char.isDigit_iff_toNat.mp h
  simp only [isBlank, Bool.or_eq_false_iff, beq_eq_false_iff_ne, Bool.and_eq_false_iff, decide_eq_false_iff_not]
  omega

theorem skipBlank_padded (width n : Nat) (rest : List Char) :
    skipBlank ((padded width n).toList ++ rest) = (padded width n).toList ++ rest := by
  cases h : (padded width n).toList with
  | nil => exact absurd h (padded_ne_nil width n)
  | cons c cs =>
    have hdigit : c.isDigit = true := isDigit_padded c (h ▸ List.mem_cons_self)
    rw [skipBlank, List.cons_append, List.dropWhile_cons, not_blank_of_isDigit hdigit]
    rfl

/-! ## The parts of a text -/

/-- two digits are read, whatever follows -/
theorem readShort?_padded {n : Nat} (h : n < 100) (rest : List Char) :
    readShort? ((padded 2 n).toList ++ rest) = some (n, rest) := by
  obtain ⟨hleast, hmost⟩ := length_padded (by decide : 0 < 2) (Nat.le_refl 2) h
  rw [readShort?, skipBlank_padded, readNumber?_digits isDigit_padded (Nat.le_of_lt hleast) hmost (padded_ne_nil 2 n)
    (.inl (Nat.le_antisymm hmost hleast)), ofDigitChars_padded]

theorem readYear?_of_isDigit {c : Char} {cs : List Char} (h : c.isDigit = true) :
    readYear? (c :: cs) = (readNumber? 1 4 (c :: cs)).map fun p => ((p.1 : Int), p.2) := by
  unfold readYear?
  split
  · next heq => cases heq; cases h
  · next heq => cases heq; cases h
  · rfl

theorem readYear?_minus (cs : List Char) :
    readYear? (skipBlank ("-".toList ++ cs)) = (readNumber? 1 18 cs).map fun p => (-(p.1 : Int), p.2) := rfl

theorem readYear?_plus (cs : List Char) :
    readYear? (skipBlank ("+".toList ++ cs)) = (readNumber? 1 18 cs).map fun p => ((p.1 : Int), p.2) := rfl

/-- a year is read up to the mark behind it -/
theorem readYear?_yearText {year : Int} (h : year.natAbs < 10 ^ 18) (rest : List Char) :
    readYear? (skipBlank ((yearText year).toList ++ '-' :: rest)) = some (year, '-' :: rest) := by
  have hstop : ∀ c cs, '-' :: rest = c :: cs → c.isDigit = false := by
    rintro c cs heq
    cases heq
    rfl
  unfold yearText
  split
  · next hfour =>
    rw [Bool.and_eq_true, decide_eq_true_eq, decide_eq_true_eq] at hfour
    obtain ⟨hleast, hmost⟩ := length_padded (n := year.toNat) (by decide : 0 < 4) (Nat.le_refl 4) (by omega)
    have hread : readNumber? 1 4 ((padded 4 year.toNat).toList ++ '-' :: rest) = some (year.toNat, '-' :: rest) := by
      rw [readNumber?_digits isDigit_padded (by omega) hmost (padded_ne_nil 4 _) (.inr hstop), ofDigitChars_padded]
    rw [skipBlank_padded]
    cases hdigits : (padded 4 year.toNat).toList with
    | nil => exact absurd hdigits (padded_ne_nil 4 _)
    | cons c cs =>
      have hc : c.isDigit = true := isDigit_padded c (hdigits ▸ List.mem_cons_self)
      rw [hdigits, List.cons_append] at hread
      rw [List.cons_append, readYear?_of_isDigit hc, hread, Option.map_some]
      simp only [Int.toNat_of_nonneg hfour.1]
  · next hfour =>
    obtain ⟨hleast, hmost⟩ := length_padded (n := year.natAbs) (by decide : 0 < 18) (by decide : 4 ≤ 18) h
    have hread : readNumber? 1 18 ((padded 4 year.natAbs).toList ++ '-' :: rest) = some (year.natAbs, '-' :: rest) := by
      rw [readNumber?_digits isDigit_padded (by omega) hmost (padded_ne_nil 4 _) (.inr hstop), ofDigitChars_padded]
    rw [String.toList_append, List.append_assoc]
    split
    · next hnegative =>
      rw [readYear?_minus, hread, Option.map_some]
      simp only [Option.some.injEq, Prod.mk.injEq, and_true]
      omega
    · next hpositive =>
      rw [readYear?_plus, hread, Option.map_some]
      simp only [Option.some.injEq, Prod.mk.injEq, and_true]
      omega

theorem readFraction?_padded {k n : Nat} (hk : 0 < k) (hnine : k ≤ 9) (h : n < 10 ^ k) {rest : List Char}
    (hstop : ∀ c cs, rest = c :: cs → c.isDigit = false) :
    readFraction? (".".toList ++ ((padded k n).toList ++ rest)) = some (n * 10 ^ (9 - k), rest) := by
  obtain ⟨hleast, hmost⟩ := length_padded hk (Nat.le_refl k) h
  have hread : readNumber? 1 9 ((padded k n).toList ++ rest) = some (n, rest) := by
    rw [readNumber?_digits isDigit_padded (by omega) (by omega) (padded_ne_nil k n) (.inr hstop), ofDigitChars_padded]
  have hdrop : rest.dropWhile Char.isDigit = rest := by
    cases rest with
    | nil => rfl
    | cons c cs => rw [List.dropWhile_cons, hstop c cs rfl]; rfl
  have hwidth : ((padded k n).toList ++ rest).length - rest.length = k := by
    rw [List.length_append]
    omega
  have hpoint : ".".toList = ['.'] := rfl
  rw [hpoint, List.cons_append, List.nil_append]
  unfold readFraction?
  simp only [hread, hdrop, hwidth]
  rfl

theorem readFraction?_fractionText {nanos : Nat} (h : nanos < 1000000000) :
    readFraction? ((fractionText nanos).toList ++ ['Z']) = some (nanos, ['Z']) := by
  have hstop : ∀ c cs, ['Z'] = c :: cs → c.isDigit = false := by
    rintro c cs heq
    cases heq
    rfl
  unfold fractionText
  split
  · next hzero => rw [hzero]; rfl
  · split
    · next hmillis =>
      rw [String.toList_append, List.append_assoc]
      rw [readFraction?_padded (by decide) (by decide) (by omega) hstop]
      simp only [Option.some.injEq, Prod.mk.injEq, and_true]
      omega
    · split
      · next hmicros =>
        rw [String.toList_append, List.append_assoc]
        rw [readFraction?_padded (by decide) (by decide) (by omega) hstop]
        simp only [Option.some.injEq, Prod.mk.injEq, and_true]
        omega
      · rw [String.toList_append, List.append_assoc]
        rw [readFraction?_padded (by decide) (by decide) h hstop]
        simp only [Option.some.injEq, Prod.mk.injEq, and_true]
        omega

/-! ## Points in time -/

/-- A point of the supported years.  A leap second is the last second of a minute. -/
structure Representable (t : Instant) : Prop where
  range : inRange t.seconds = true
  nanos : t.nanos < 1000000000 ∨ t.nanos < 2000000000 ∧ t.seconds % 60 = 59

namespace Representable
variable {t : Instant}

theorem year (h : t.Representable) :
    firstYear ≤ (dateOfDays (t.seconds / 86400)).year ∧ (dateOfDays (t.seconds / 86400)).year ≤ lastYear := by
  have hrange := h.range
  rw [inRange, Bool.and_eq_true, decide_eq_true_eq, decide_eq_true_eq] at hrange
  have hfirst : daysOfDate ⟨firstYear, 1, 1⟩ ≤ t.seconds / 86400 := by omega
  have hlast : t.seconds / 86400 ≤ daysOfDate ⟨lastYear, 12, 31⟩ := by omega
  exact year_dateOfDays hfirst hlast

/-- the parts of a point in time form a date and a time of day -/
theorem ofParts? (h : t.Representable) : ofParts? (dateOfDays (t.seconds / 86400)).year
    (dateOfDays (t.seconds / 86400)).month (dateOfDays (t.seconds / 86400)).day ((t.seconds % 86400).toNat / 3600)
    ((t.seconds % 86400).toNat / 60 % 60) ((t.seconds % 86400).toNat % 60 + t.nanos / 1000000000)
    (t.nanos % 1000000000) 0 = some t := by
  obtain ⟨hfirst, hlast⟩ := h.year
  have hnanos := h.nanos
  have hdate : daysOfDate ⟨(dateOfDays (t.seconds / 86400)).year, (dateOfDays (t.seconds / 86400)).month,
      (dateOfDays (t.seconds / 86400)).day⟩ = t.seconds / 86400 := daysOfDate_dateOfDays _
  have hhour : (t.seconds % 86400).toNat / 3600 < 24 := by omega
  have hminute : (t.seconds % 86400).toNat / 60 % 60 < 60 := by omega
  have hsecond : (t.seconds % 86400).toNat % 60 + t.nanos / 1000000000 ≤ 60 := by omega
  unfold Instant.ofParts?
  have hoffset : decide ((-86400 : Int) < 0) = true ∧ decide ((0 : Int) < 86400) = true := ⟨rfl, rfl⟩
  simp only [isDate_dateOfDays, hfirst, hlast, hhour, hminute, hsecond, hdate, hoffset, decide_true, Bool.and_self,
    if_true]
  by_cases hleap : t.nanos < 1000000000
  · have hsecond : (t.seconds % 86400).toNat % 60 + t.nanos / 1000000000 ≠ 60 := by omega
    have hnanos : t.nanos % 1000000000 = t.nanos := Nat.mod_eq_of_lt hleap
    have htime : t.seconds / 86400 * 86400 + ((((t.seconds % 86400).toNat / 3600 : Nat) : Int) * 3600 +
        (((t.seconds % 86400).toNat / 60 % 60 : Nat) : Int) * 60 +
        (((t.seconds % 86400).toNat % 60 + t.nanos / 1000000000 : Nat) : Int)) - 0 = t.seconds := by omega
    rw [if_neg hsecond, if_neg hsecond, hnanos, htime, if_pos h.range]
  · have hsecond : (t.seconds % 86400).toNat % 60 + t.nanos / 1000000000 = 60 := by omega
    have hnanos : t.nanos % 1000000000 + 1000000000 = t.nanos := by omega
    have htime : t.seconds / 86400 * 86400 + ((((t.seconds % 86400).toNat / 3600 : Nat) : Int) * 3600 +
        (((t.seconds % 86400).toNat / 60 % 60 : Nat) : Int) * 60 + ((59 : Nat) : Int)) - 0 = t.seconds := by omega
    rw [if_pos hsecond, if_pos hsecond, hnanos, htime, if_pos h.range]

end Representable

theorem readChar?_skipBlank {c : Char} (h : isBlank c = false) (cs : List Char) :
    readChar? c (skipBlank (c :: cs)) = some cs := by
  rw [skipBlank, List.dropWhile_cons, h]
  exact if_pos rfl

theorem toList_write (t : Instant) : t.write.toList =
    (yearText (dateOfDays (t.seconds / 86400)).year).toList ++ '-' ::
      ((padded 2 (dateOfDays (t.seconds / 86400)).month).toList ++ '-' ::
      ((padded 2 (dateOfDays (t.seconds / 86400)).day).toList ++ 'T' ::
      ((padded 2 ((t.seconds % 86400).toNat / 3600)).toList ++ ':' ::
      ((padded 2 ((t.seconds % 86400).toNat / 60 % 60)).toList ++ ':' ::
      ((padded 2 ((t.seconds % 86400).toNat % 60 + t.nanos / 1000000000)).toList ++
      ((fractionText (t.nanos % 1000000000)).toList ++ ['Z'])))))) := by
  have hdash : "-".toList = ['-'] := rfl
  have hmark : "T".toList = ['T'] := rfl
  have hcolon : ":".toList = [':'] := rfl
  have hzone : "Z".toList = ['Z'] := rfl
  simp only [write, writeWith, String.toList_append, List.append_assoc, hdash, hmark, hcolon, hzone, List.cons_append,
    List.nil_append]

/-- **A point in time is read back from its text.** -/
theorem read?_write {t : Instant} (h : t.Representable) : Instant.read? t.write = some t := by
  obtain ⟨hfirst, hlast⟩ := h.year
  have hparts := h.ofParts?
  have hnanos := h.nanos
  obtain ⟨hmonth, hday⟩ := two_digits_of_isDate (isDate_dateOfDays (t.seconds / 86400))
  have hyear : (dateOfDays (t.seconds / 86400)).year.natAbs < 10 ^ 18 := by
    rw [firstYear] at hfirst
    rw [lastYear] at hlast
    omega
  have hhour : (t.seconds % 86400).toNat / 3600 < 100 := by omega
  have hminute : (t.seconds % 86400).toNat / 60 % 60 < 100 := by omega
  have hsecond : (t.seconds % 86400).toNat % 60 + t.nanos / 1000000000 < 100 := by omega
  have hfraction : t.nanos % 1000000000 < 1000000000 := Nat.mod_lt _ (by decide)
  have hdash : isBlank '-' = false := by decide
  have hcolon : isBlank ':' = false := by decide
  have hzone : readZone? (skipBlank ['Z']) = some (0, []) := by decide
  show readChars? t.write.toList = some t
  rw [toList_write]
  unfold readChars?
  simp only [Option.bind_eq_bind, Option.bind_some, readYear?_yearText hyear, readChar?_skipBlank hdash,
    readChar?_skipBlank hcolon, readShort?_padded hmonth, readShort?_padded hday, readMark?, readShort?_padded hhour,
    readShort?_padded hminute, readShort?_padded hsecond, readFraction?_fractionText hfraction, hzone, hparts]
  rfl

end Workflows.Instant
