import Workflows.Proofs.Failure
import Workflows.Proofs.Number.Overflow

/-!
# Texts that denote numbers

Which texts are numerals, and for which numbers, said without a reader.

* `IsNumeral`     a decimal with an optional sign, and the number that it denotes
* `IsWord`        a word for an infinite number, or for none
* `readDecimal?_iff`, `readInt64?_numeral`   what the readers take is a numeral

Main statement: a text is read as a double just if it is a numeral or a word, and the double is finite just if the
text is a numeral for a number below the bound (`readDouble?_of_numeral`, `readDouble?_of_word`, `denotes_of_readDouble?`).
-/

namespace Workflows.Number

/-! ## Numerals -/

/-- decimal digits, at least one -/
def IsDigits (ds : List Char) : Prop := ds ≠ [] ∧ ∀ c ∈ ds, c.isDigit

/-- `cs` is `ds` behind an optional sign. -/
inductive IsSigned : List Char → Bool → List Char → Prop
  | minus (ds : List Char) : IsSigned ('-' :: ds) true ds
  | plus (ds : List Char) : IsSigned ('+' :: ds) false ds
  | unsigned (ds : List Char) : IsSigned ds false ds

/-- a number behind a sign -/
def signed {α : Type} [Neg α] (negative : Bool) (n : α) : α := if negative then -n else n

/-- An exponent part, if there is one, and the exponent. -/
inductive IsExponent : List Char → Int → Prop
  | absent : IsExponent [] 0
  | present {mark : Char} {cs ds : List Char} {negative : Bool} (hmark : mark = 'e' ∨ mark = 'E')
      (hsign : IsSigned cs negative ds) (hds : IsDigits ds) :
      IsExponent (mark :: cs) (signed negative (digitsValue ds))

/-- An unsigned decimal: the number that all its digits make, and the exponent of the last one. -/
inductive IsDecimal : List Char → Nat → Int → Prop
  | whole {ds tail : List Char} {e : Int} (hds : IsDigits ds) (he : IsExponent tail e) :
      IsDecimal (ds ++ tail) (digitsValue ds) e
  | pointed {whole fraction tail : List Char} {e : Int} (hds : IsDigits (whole ++ fraction)) (he : IsExponent tail e) :
      IsDecimal (whole ++ '.' :: (fraction ++ tail)) (digitsValue (whole ++ fraction)) (e - fraction.length)

/-- A text is a decimal with an optional sign, and denotes a number. -/
def IsNumeral (s : String) (q : ℚ) : Prop :=
  ∃ negative cs m e, IsSigned s.toList negative cs ∧ IsDecimal cs m e ∧ q = signed negative ((m : ℚ) * 10 ^ e)

/-- the words for an infinite number and for none -/
def words : List String := ["inf", "infinity", "nan"]

/-- A text is such a word, in any case, with an optional sign. -/
def IsWord (s : String) : Prop :=
  ∃ negative cs, IsSigned s.toList negative cs ∧ String.ofList (cs.map Char.toLower) ∈ words

/-! ## Readers -/

variable {cs ds : List Char} {negative : Bool} {n m : Nat} {e : Int}

theorem readDigits?_iff : readDigits? cs = some n ↔ IsDigits cs ∧ digitsValue cs = n := by
  rw [readDigits?, IsDigits]
  split
  · next hnone =>
    refine iff_of_false nofun fun h => ?_
    simp [h.1.1] at hnone
    obtain ⟨c, hc, hdigit⟩ := hnone
    rw [h.1.2 c hc] at hdigit
    cases hdigit
  · next hdigits =>
    simp at hdigits
    rw [Option.some_inj]
    exact (and_iff_right hdigits).symm

theorem isSigned_readSign (cs : List Char) : IsSigned cs (readSign cs).1 (readSign cs).2 := by
  rw [readSign.eq_def]
  split
  · exact .minus _
  · exact .plus _
  · exact .unsigned _

theorem IsSigned.readSign_eq (h : IsSigned cs negative ds) (hminus : ds.head? ≠ some '-')
    (hplus : ds.head? ≠ some '+') : readSign cs = (negative, ds) := by
  cases h with
  | minus => rfl
  | plus => rfl
  | unsigned =>
    rw [readSign.eq_def]
    split
    · exact absurd rfl hminus
    · exact absurd rfl hplus
    · rfl

theorem IsDigits.head (h : IsDigits ds) : ∃ c, ds.head? = some c ∧ c.isDigit := by
  obtain ⟨hne, hall⟩ := h
  cases ds with
  | nil => exact absurd rfl hne
  | cons c ds => exact ⟨c, rfl, hall c (List.mem_cons_self)⟩

theorem IsSigned.readSign_of_digits (h : IsSigned cs negative ds) (hds : IsDigits ds) :
    readSign cs = (negative, ds) := by
  obtain ⟨c, hhead, hdigit⟩ := hds.head
  refine h.readSign_eq ?_ ?_
  all_goals
    rw [hhead]
    rintro ⟨⟩
    cases hdigit

theorem readExponent?_iff : readExponent? cs = some e ↔ IsExponent cs e := by
  constructor
  · intro h
    cases cs with
    | nil =>
      obtain rfl := Option.some.inj h
      exact .absent
    | cons mark cs =>
      rw [readExponent?] at h
      split at h
      · next hmark =>
        have hsign := isSigned_readSign cs
        generalize readSign cs = parts at h hsign
        obtain ⟨negative, ds⟩ := parts
        simp only at h hsign
        cases hn : readDigits? ds with
        | none =>
          rw [hn] at h
          cases h
        | some n =>
          rw [hn] at h
          obtain ⟨hds, rfl⟩ := readDigits?_iff.mp hn
          obtain rfl := Option.some.inj h
          simp only [Bool.or_eq_true, beq_iff_eq] at hmark
          exact .present hmark hsign hds
      · cases h
  · intro h
    cases h with
    | absent => rfl
    | present hmark hsign hds =>
      rw [readExponent?, if_pos (by simpa using hmark)]
      simp only [hsign.readSign_of_digits hds, readDigits?_iff.mpr ⟨hds, rfl⟩]
      rfl

/-! ### digits and what follows them -/

theorem IsExponent.no_digit (h : IsExponent cs e) : ∀ c, cs.head? = some c → c.isDigit = false ∧ c ≠ '.' := by
  intro c hc
  cases h with
  | absent => cases hc
  | present hmark =>
    obtain rfl := Option.some.inj hc
    rcases hmark with rfl | rfl
    · decide
    · decide

/-- the digits in front of something else -/
theorem span_digits {rest : List Char} (hds : ∀ c ∈ ds, c.isDigit)
    (hrest : ∀ c, rest.head? = some c → c.isDigit = false) :
    (ds ++ rest).takeWhile Char.isDigit = ds ∧ (ds ++ rest).dropWhile Char.isDigit = rest := by
  rw [List.takeWhile_append_of_pos hds, List.dropWhile_append_of_pos hds]
  cases rest with
  | nil => exact ⟨List.append_nil ds, rfl⟩
  | cons c rest =>
    rw [List.takeWhile_cons_of_neg (by simp [hrest c rfl]), List.dropWhile_cons_of_neg (by simp [hrest c rfl])]
    exact ⟨List.append_nil ds, rfl⟩

/-- the digits behind a point, if there is one, and what follows them -/
def afterPoint : List Char → List Char × List Char
  | '.' :: r => (r.takeWhile Char.isDigit, r.dropWhile Char.isDigit)
  | r => ([], r)

/-- a decimal read from the digits before and behind its point, and what follows them -/
def readParts? (whole fraction tail : List Char) : Option Float :=
  if whole.isEmpty && fraction.isEmpty then none
  else (readExponent? tail).map fun e => scaled (digitsValue (whole ++ fraction)) (e - fraction.length)

theorem readDecimal?_eq (cs : List Char) : readDecimal? cs =
    let (fraction, tail) := afterPoint (cs.dropWhile Char.isDigit)
    readParts? (cs.takeWhile Char.isDigit) fraction tail := rfl

/-- either no point stands behind the first digits, or more digits stand behind the point -/
theorem afterPoint_cases (rest : List Char) : afterPoint rest = ([], rest) ∨
    ∃ fraction tail, rest = '.' :: (fraction ++ tail) ∧ (∀ c ∈ fraction, c.isDigit) ∧
      afterPoint rest = (fraction, tail) := by
  rw [afterPoint.eq_def]
  split
  · next r =>
    exact .inr ⟨_, _, congrArg _ (List.takeWhile_append_dropWhile).symm, fun c hc => List.mem_takeWhile_imp hc, rfl⟩
  · exact .inl rfl

theorem IsExponent.afterPoint_eq (h : IsExponent cs e) : afterPoint cs = ([], cs) := by
  rw [afterPoint.eq_def]
  split
  · exact absurd rfl (h.no_digit '.' rfl).2
  · rfl

variable {whole fraction tail : List Char} {x : Float}

theorem readParts?_iff (hdigits : ∀ c ∈ whole ++ fraction, c.isDigit) : readParts? whole fraction tail = some x ↔
    IsDigits (whole ++ fraction) ∧
      ∃ e, IsExponent tail e ∧ scaled (digitsValue (whole ++ fraction)) (e - fraction.length) = x := by
  have hempty : (whole.isEmpty && fraction.isEmpty) = true ↔ whole ++ fraction = [] := by
    rw [Bool.and_eq_true, List.isEmpty_iff, List.isEmpty_iff, List.append_eq_nil_iff]
  rw [readParts?]
  split
  · next hnone => exact iff_of_false nofun fun h => h.1.1 (hempty.mp hnone)
  · next hsome =>
    simp only [Option.map_eq_some_iff, readExponent?_iff]
    exact (and_iff_right ⟨fun h => hsome (hempty.mpr h), hdigits⟩).symm

/-- **What is read as a decimal is one.** -/
theorem readDecimal?_iff : readDecimal? cs = some x ↔ ∃ m e, IsDecimal cs m e ∧ scaled m e = x := by
  rw [readDecimal?_eq]
  constructor
  · intro h
    have hsplit := List.takeWhile_append_dropWhile (p := Char.isDigit) (l := cs)
    have hdigits : ∀ c ∈ cs.takeWhile Char.isDigit, c.isDigit := fun c hc => List.mem_takeWhile_imp hc
    generalize cs.takeWhile Char.isDigit = whole at h hsplit hdigits
    generalize cs.dropWhile Char.isDigit = rest at h hsplit
    subst hsplit
    rcases afterPoint_cases rest with hbare | ⟨fraction, tail, rfl, hfraction, hpoint⟩
    · rw [hbare] at h
      obtain ⟨hds, e, he, rfl⟩ := (readParts?_iff (by simpa using hdigits)).mp h
      rw [List.append_nil] at hds ⊢
      exact ⟨_, _, .whole hds he, by simp⟩
    · rw [hpoint] at h
      obtain ⟨hds, e, he, rfl⟩ := (readParts?_iff (List.forall_mem_append.mpr ⟨hdigits, hfraction⟩)).mp h
      exact ⟨_, _, .pointed hds he, rfl⟩
  · rintro ⟨m, e, hdecimal, rfl⟩
    cases hdecimal with
    | @whole ds tail e hds he =>
      obtain ⟨hfront, hrest⟩ := span_digits hds.2 fun c hc => (he.no_digit c hc).1
      rw [hfront, hrest, he.afterPoint_eq]
      refine (readParts?_iff (by simpa using hds.2)).mpr ?_
      rw [List.append_nil]
      exact ⟨hds, e, he, by simp⟩
    | @pointed whole fraction tail e hds he =>
      obtain ⟨hwhole, hfraction⟩ := List.forall_mem_append.mp hds.2
      have hpoint : ∀ c, ('.' :: (fraction ++ tail)).head? = some c → c.isDigit = false := by
        rintro c ⟨⟩
        rfl
      obtain ⟨hfront, hrest⟩ := span_digits hwhole hpoint
      obtain ⟨hfront', hrest'⟩ := span_digits hfraction fun c hc => (he.no_digit c hc).1
      rw [hfront, hrest, afterPoint, hfront', hrest']
      exact (readParts?_iff hds.2).mpr ⟨hds, e, he, rfl⟩

/-! ### signs and words -/

theorem IsDecimal.head (h : IsDecimal cs m e) : ∃ c, cs.head? = some c ∧ (c.isDigit ∨ c = '.') := by
  cases h with
  | whole hds =>
    obtain ⟨c, hc, hdigit⟩ := hds.head
    exact ⟨c, by rw [List.head?_append, hc, Option.some_or], .inl hdigit⟩
  | @pointed whole fraction tail e hds =>
    cases whole with
    | nil => exact ⟨'.', rfl, .inr rfl⟩
    | cons c whole => exact ⟨c, rfl, .inl (hds.2 c List.mem_cons_self)⟩

theorem IsDecimal.readSign_eq {ds : List Char} (h : IsDecimal ds m e) (hsign : IsSigned cs negative ds) :
    readSign cs = (negative, ds) := by
  obtain ⟨c, hhead, hc⟩ := h.head
  refine hsign.readSign_eq ?_ ?_
  all_goals
    rw [hhead]
    rintro ⟨⟩
    rcases hc with hc | hc <;> cases hc

theorem head_of_word (h : String.ofList (cs.map Char.toLower) ∈ words) :
    ∃ c, cs.head? = some c ∧ (c.toLower = 'i' ∨ c.toLower = 'n') := by
  have hhead : ∃ w ∈ words, cs.map Char.toLower = w.toList := ⟨_, h, String.toList_ofList.symm⟩
  cases cs with
  | nil => exact absurd h (by decide)
  | cons c cs =>
    obtain ⟨w, hw, hword⟩ := hhead
    refine ⟨c, rfl, ?_⟩
    have hfirst : w.toList.head? = some c.toLower := by rw [← hword]; rfl
    simp only [words, List.mem_cons, List.not_mem_nil, or_false] at hw
    rcases hw with rfl | rfl | rfl
    · exact .inl (Option.some.inj hfirst).symm
    · exact .inl (Option.some.inj hfirst).symm
    · exact .inr (Option.some.inj hfirst).symm

theorem readSign_of_word {ds : List Char} (h : String.ofList (ds.map Char.toLower) ∈ words)
    (hsign : IsSigned cs negative ds) : readSign cs = (negative, ds) := by
  obtain ⟨c, hhead, hc⟩ := head_of_word h
  refine hsign.readSign_eq ?_ ?_
  all_goals
    rw [hhead]
    rintro ⟨⟩
    rcases hc with hc | hc <;> cases hc

theorem IsDecimal.not_word (h : IsDecimal cs m e) : String.ofList (cs.map Char.toLower) ∉ words := by
  intro hword
  obtain ⟨c, hhead, hc⟩ := h.head
  obtain ⟨c', hhead', hletter⟩ := head_of_word hword
  obtain rfl := Option.some.inj (hhead.symm.trans hhead')
  have hlower : c.toLower = c := by
    rcases hc with hdigit | rfl
    · exact (Text.small_of_isDigit hdigit).2
    · rfl
  rw [hlower] at hletter
  rcases hc with hdigit | rfl
  · rcases hletter with rfl | rfl <;> cases hdigit
  · rcases hletter with hi | hn
    · cases hi
    · cases hn

/-- the magnitude of a double, read from a text without a sign -/
def magnitudeOf? (cs : List Char) : Option Float :=
  let word := String.ofList (cs.map Char.toLower)
  if word = "inf" || word = "infinity" then some (1.0 / 0.0)
  else if word = "nan" then some (0.0 / 0.0)
  else readDecimal? cs

theorem readDouble?_eq {s : String} (h : readSign s.toList = (negative, cs)) :
    readDouble? s = (magnitudeOf? cs).map (signed negative) := by
  rw [readDouble?]
  simp only [h]
  rfl

theorem magnitudeOf?_word (h : String.ofList (cs.map Char.toLower) ∈ words) :
    ∃ x, magnitudeOf? cs = some x ∧ x.isFinite = false := by
  rw [magnitudeOf?]
  generalize String.ofList (cs.map Char.toLower) = word at h
  simp only [words, List.mem_cons, List.not_mem_nil, or_false] at h
  rcases h with rfl | rfl | rfl
  · exact ⟨_, rfl, by decide⟩
  · exact ⟨_, rfl, by decide⟩
  · exact ⟨_, rfl, by decide⟩

theorem magnitudeOf?_eq (h : String.ofList (cs.map Char.toLower) ∉ words) : magnitudeOf? cs = readDecimal? cs := by
  rw [magnitudeOf?]
  simp only [words, List.mem_cons, List.not_mem_nil, or_false, not_or] at h
  rw [if_neg (by simp [h.1, h.2.1]), if_neg h.2.2]

theorem isFinite_signed (negative : Bool) (x : Float) : (signed negative x).isFinite = x.isFinite := by
  cases negative with
  | false => rfl
  | true => exact isFinite_neg x

theorem abs_signed (negative : Bool) {q : ℚ} (hq : 0 ≤ q) : |signed negative q| = q := by
  cases negative with
  | false => exact abs_of_nonneg hq
  | true =>
    rw [signed, if_pos rfl, abs_neg]
    exact abs_of_nonneg hq

variable {s : String} {q : ℚ}

/-- **Every numeral is read, and finite below the bound.** -/
theorem readDouble?_of_numeral (h : IsNumeral s q) :
    ∃ x, readDouble? s = some x ∧ (x.isFinite = true ↔ |q| < leastInfinite) := by
  obtain ⟨negative, cs, m, e, hsign, hdecimal, rfl⟩ := h
  refine ⟨signed negative (scaled m e), ?_, ?_⟩
  · rw [readDouble?_eq (hdecimal.readSign_eq hsign), magnitudeOf?_eq hdecimal.not_word,
      readDecimal?_iff.mpr ⟨m, e, hdecimal, rfl⟩]
    rfl
  · rw [isFinite_signed, abs_signed negative (by positivity)]
    exact isFinite_scaled m e

theorem readDouble?_of_word (h : IsWord s) : ∃ x, readDouble? s = some x ∧ x.isFinite = false := by
  obtain ⟨negative, cs, hsign, hword⟩ := h
  obtain ⟨x, hx, hinfinite⟩ := magnitudeOf?_word hword
  refine ⟨signed negative x, ?_, by rw [isFinite_signed, hinfinite]⟩
  rw [readDouble?_eq (readSign_of_word hword hsign), hx]
  rfl

/-- Nothing else is read. -/
theorem denotes_of_readDouble? {x : Float} (h : readDouble? s = some x) : IsWord s ∨ ∃ q, IsNumeral s q := by
  have hsign := isSigned_readSign s.toList
  generalize hparts : readSign s.toList = parts at hsign
  obtain ⟨negative, cs⟩ := parts
  rw [readDouble?_eq hparts] at h
  by_cases hword : String.ofList (cs.map Char.toLower) ∈ words
  · exact .inl ⟨negative, cs, hsign, hword⟩
  · rw [magnitudeOf?_eq hword] at h
    obtain ⟨y, hy, -⟩ := Option.map_eq_some_iff.mp h
    obtain ⟨m, e, hdecimal, -⟩ := readDecimal?_iff.mp hy
    exact .inr ⟨_, negative, cs, m, e, hsign, hdecimal, rfl⟩

/-- **A text is read as a finite double just if it is a numeral below the bound.** -/
theorem readDouble?_finite_iff : (∃ x, readDouble? s = some x ∧ x.isFinite = true) ↔
    ∃ q, IsNumeral s q ∧ |q| < leastInfinite := by
  constructor
  · rintro ⟨x, hx, hfinite⟩
    rcases denotes_of_readDouble? hx with hword | ⟨q, hq⟩
    · obtain ⟨y, hy, hinfinite⟩ := readDouble?_of_word hword
      obtain rfl := Option.some.inj (hx.symm.trans hy)
      rw [hfinite] at hinfinite
      cases hinfinite
    · obtain ⟨y, hy, hbound⟩ := readDouble?_of_numeral hq
      obtain rfl := Option.some.inj (hx.symm.trans hy)
      exact ⟨q, hq, hbound.mp hfinite⟩
  · rintro ⟨q, hq, hlt⟩
    obtain ⟨x, hx, hbound⟩ := readDouble?_of_numeral hq
    exact ⟨x, hx, hbound.mpr hlt⟩

theorem readDouble?_infinite_iff : (∃ x, readDouble? s = some x ∧ x.isFinite = false) ↔
    IsWord s ∨ ∃ q, IsNumeral s q ∧ leastInfinite ≤ |q| := by
  constructor
  · rintro ⟨x, hx, hinfinite⟩
    refine (denotes_of_readDouble? hx).imp_right fun ⟨q, hq⟩ => ?_
    obtain ⟨y, hy, hbound⟩ := readDouble?_of_numeral hq
    obtain rfl := Option.some.inj (hx.symm.trans hy)
    refine ⟨q, hq, not_lt.mp fun hlt => ?_⟩
    rw [hbound.mpr hlt] at hinfinite
    cases hinfinite
  · rintro (hword | ⟨q, hq, hle⟩)
    · exact readDouble?_of_word hword
    · obtain ⟨x, hx, hbound⟩ := readDouble?_of_numeral hq
      exact ⟨x, hx, Bool.eq_false_of_not_eq_true (mt hbound.mp (not_lt.mpr hle))⟩

theorem abs_lt_of_fitsInt64 {n : Int} (h : fitsInt64 n) : |(n : ℚ)| < leastInfinite := by
  rw [fitsInt64, Bool.and_eq_true, decide_eq_true_eq, decide_eq_true_eq, minInt64, maxInt64] at h
  have habs : |n| ≤ (9223372036854775808 : Nat) := abs_le.mpr ⟨by omega, by omega⟩
  have hlt : |n| < leastInfinite := habs.trans_lt (Int.ofNat_lt.mpr (lt_leastInfinite (k := 64) (by decide) (by decide)))
  exact_mod_cast hlt

/-- an integer of 64 bits is a numeral far below the bound -/
theorem numeral_of_readInt64? {n : Int} (h : readInt64? s = some n) :
    IsNumeral s n ∧ |(n : ℚ)| < leastInfinite := by
  have hsign := isSigned_readSign s.toList
  rw [readInt64?] at h
  generalize readSign s.toList = parts at h hsign
  obtain ⟨negative, cs⟩ := parts
  simp only at h hsign
  split at h
  · next k hk =>
    obtain ⟨hds, rfl⟩ := readDigits?_iff.mp hk
    generalize hv : (if negative = true then -(digitsValue cs : Int) else (digitsValue cs : Int)) = v at h
    split at h
    · next hfits =>
      obtain rfl := Option.some.inj h
      have hwhole := IsDecimal.whole hds .absent
      rw [List.append_nil] at hwhole
      refine ⟨⟨negative, cs, _, 0, hsign, hwhole, ?_⟩, abs_lt_of_fitsInt64 hfits⟩
      rw [← hv, zpow_zero, mul_one, signed]
      split
      · push_cast
        rfl
      · rfl
    · cases h
  · cases h

end Workflows.Number
