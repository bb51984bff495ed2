import Workflows.Proofs.Expr.Infix

/-!
# Arithmetic of integers

Sums, differences, products and remainders of signed 64-bit integers are integers where 64 bits hold the exact result,
and else doubles.  The remainder has the sign of the divisor.  It is made from the one with the sign of the dividend by
an addition that never leaves the range.  That one is refused for the least integer and `-1`, whose quotient leaves the
range; the remainder of these two, which is `0`, becomes the double `-0.0`.

* `Arith.result?`         the exact result;
* `wordRemainder?_eq`    the remainder of words is the exact one, but for that pair;
* `exactResult?_eq`      so is every result that is an integer;
* `arithmetic?_int`      what an operation on two integers gives.

Main statement: what the text of an operation on two variables evaluates to (`evaluateText_arithmetic`).
-/

namespace Workflows
open Text

/-- the exact result of an operation between integers, if it is an integer for all of them; a remainder has the sign of
the divisor -/
def Arith.result? (op : Arith) (a b : Int) : Option Int :=
  match op with
  | .add => some (a + b)
  | .sub => some (a - b)
  | .mul => some (a * b)
  | .div => none
  | .rem => if b = 0 then none else some (a.fmod b)

variable {op : Arith} {a b n : Int}

theorem Number.fitsInt64_iff : fitsInt64 n = true ↔ minInt64 ≤ n ∧ n ≤ maxInt64 := by
  rw [fitsInt64, Bool.and_eq_true, decide_eq_true_eq, decide_eq_true_eq]

theorem Number.minInt64_eq : minInt64 = -maxInt64 - 1 := by decide

/-- what 64 bits hold does not wrap around -/
theorem Number.wrapInt64_of_fits (h : fitsInt64 n = true) : wrapInt64 n = n := by
  have hcount : (wordCount : Int) = 2 * maxInt64 + 2 := by decide
  rw [fitsInt64_iff, minInt64_eq] at h
  exact Int.bmod_eq_of_le (by omega) (by omega)

/-! ## Remainders -/

/-- a remainder has the sign of the divisor, and is smaller -/
theorem fmod_between (a : Int) (hb : b ≠ 0) : 0 ≤ a.fmod b ∧ a.fmod b < b ∨ b < a.fmod b ∧ a.fmod b ≤ 0 := by
  have hnonneg := Int.emod_nonneg a hb
  have hlt := Int.emod_lt a hb
  simp only [Int.fmod_eq_emod, Int.dvd_iff_emod_eq_zero]
  split <;> omega

theorem fits_fmod (a : Int) (hb : Number.fitsInt64 b = true) (hb0 : b ≠ 0) : Number.fitsInt64 (a.fmod b) = true := by
  have hbetween := fmod_between a hb0
  rw [Number.fitsInt64_iff, Number.minInt64_eq] at hb ⊢
  omega

/-- The remainder with the sign of the divisor, from the one with the sign of the dividend: where that one has the other
sign, the divisor is added. -/
theorem fmod_eq_corrected (a : Int) (hb : b ≠ 0) :
    a.fmod b = if a.tmod b ≠ 0 ∧ ¬(a.tmod b < 0 ↔ b < 0) then a.tmod b + b else a.tmod b := by
  have hnonneg := Int.emod_nonneg a hb
  have hlt := Int.emod_lt a hb
  simp only [Int.fmod_eq_emod, Int.tmod_eq_emod, Int.dvd_iff_emod_eq_zero]
  split <;> split <;> split <;> omega

namespace Expr

/-- The correction never leaves the range, since the remainder and the divisor have different signs. -/
theorem wordRemainder?_eq (hb : Number.fitsInt64 b = true) (hb0 : b ≠ 0) :
    wordRemainder? a b = if a = Number.minInt64 ∧ b = -1 then none else some (a.fmod b) := by
  have hcorrected := fmod_eq_corrected a hb0
  have hwrap : Number.wrapInt64 (a.fmod b) = a.fmod b := Number.wrapInt64_of_fits (fits_fmod a hb hb0)
  simp only [wordRemainder?, Bool.and_eq_true, decide_eq_true_eq, bne_iff_ne, ne_eq, decide_eq_decide]
  by_cases hpair : a = Number.minInt64 ∧ b = -1
  · rw [if_pos hpair, if_pos hpair]
  rw [if_neg hpair, if_neg hpair]
  by_cases hsigns : a.tmod b ≠ 0 ∧ ¬(a.tmod b < 0 ↔ b < 0)
  · rw [if_pos hsigns] at hcorrected ⊢
    rw [← hcorrected, hwrap]
  · rw [if_neg hsigns] at hcorrected ⊢
    rw [hcorrected]

/-- An operation on words gives the exact result where they hold it, but for the one remainder whose quotient they do
not hold. -/
theorem exactResult?_eq (h : op.result? a b = some n) (hb : Number.fitsInt64 b = true) : exactResult? op a b =
    if Number.fitsInt64 n = true ∧ ¬(op = .rem ∧ a = Number.minInt64 ∧ b = -1) then some n else none := by
  cases op with
  | add | sub | mul => cases h; simp [exactResult?]
  | div => cases h
  | rem =>
    have hb0 : b ≠ 0 := fun hzero => by simp [Arith.result?, hzero] at h
    rw [Arith.result?, if_neg hb0] at h
    cases h
    rw [exactResult?, wordRemainder?_eq hb hb0]
    by_cases hpair : a = Number.minInt64 ∧ b = -1 <;> simp [hpair, fits_fmod a hb hb0]

/-- what is no exact integer is a double, or nothing -/
theorem approximate?_eq_double {x y : Float} {v : Json} (h : approximate? op x y = some v) : ∃ d, v = .double d := by
  have hfinite : ∀ z, finite? z = some v → ∃ d, v = .double d := by
    intro z hz
    rw [finite?] at hz
    split at hz
    · cases hz; exact ⟨z, rfl⟩
    · cases hz
  cases op with
  | add | sub | mul => exact hfinite _ h
  | div | rem =>
    rw [approximate?] at h
    split at h
    · cases h
    · exact hfinite _ h

theorem arithmetic?_int (h : op.result? a b = some n) (ha : Number.fitsInt64 a = true) (hb : Number.fitsInt64 b = true) :
    arithmetic? op (.int a) (.int b) =
      if Number.fitsInt64 n = true ∧ ¬(op = .rem ∧ a = Number.minInt64 ∧ b = -1) then some (.int n)
      else approximate? op (Float.ofInt a) (Float.ofInt b) := by
  have hzero : (op = .rem && b = 0) = false := by
    cases op <;> simp_all [Arith.result?]
  simp only [arithmetic?, Json.double?, int64?, ha, hb, if_true, hzero, Bool.false_eq_true, if_false, exactResult?_eq h hb]
  by_cases hexact : Number.fitsInt64 n = true ∧ ¬(op = .rem ∧ a = Number.minInt64 ∧ b = -1)
  · rw [if_pos hexact, if_pos hexact]
  · rw [if_neg hexact, if_neg hexact]

end Expr

/-! ## Texts -/

/-- the text of an operation on two variables -/
def arithmeticText (x : String) (op : Arith) (y : String) : String := infixText x [op.symbol] y

variable {vars : Vars} {x y : String}

theorem Expr.derives_arith (x : String) (op : Arith) (y : String) :
    Nonempty (Derivation .or [.name x, .arith op, .name y] (.arith op (.var x) (.var y))) := by
  cases hsum : isSum op with
  | true =>
    exact ⟨.ofAnd (.ofNot (.ofComparison (.ofSum (.sum (isSum_iff.mp hsum) (.ofProduct (.ofSign (.ofOperand (.name x))))
      (.ofSign (.ofOperand (.name y)))))))⟩
  | false =>
    exact ⟨.ofAnd (.ofNot (.ofComparison (.ofSum (.ofProduct (.product (isSum_eq_false_iff.mp hsum)
      (.ofSign (.ofOperand (.name x))) (.ofOperand (.name y)))))))⟩

/-- the value of an operation on two variables is that of the operation on their values -/
theorem evaluateText_arith (hx : Token.IsName x) (hy : Token.IsName y) (hxa : Dict.get? vars x = some (.int a))
    (hyb : Dict.get? vars y = some (.int b)) (op : Arith) :
    evaluateText vars (arithmeticText x op y) = match Expr.arithmetic? op (.int a) (.int b) with
      | some v => .value v
      | none => .unevaluated (arithmeticText x op y) := by
  obtain ⟨D⟩ := Expr.derives_arith x op y
  have hdollar : '$' ∉ [op.symbol] := by cases op <;> decide
  have hoperator : op.symbol ∈ operators := by cases op <;> decide
  have hlex : Token.lexAll [op.symbol] = some [.arith op] := by cases op <;> exact Token.lexAll_single (by decide) rfl
  have heval : Expr.eval? vars (.arith op (.var x) (.var y)) = Expr.arithmetic? op (.int a) (.int b) := by
    rw [Expr.eval?, Expr.eval?, Expr.eval?, hxa, hyb]
  rw [← heval]
  exact evaluateText_infix hx hy hdollar hlex hoperator List.mem_cons_self D

/-- **The sum, difference, product or remainder of two integers is the exact one where 64 bits hold it, but for the
remainder of the least integer and `-1`, which is `-0.0`; what 64 bits do not hold is a double, or the text stays as it
is.** -/
theorem evaluateText_arithmetic (hx : Token.IsName x) (hy : Token.IsName y) (hxa : Dict.get? vars x = some (.int a))
    (hyb : Dict.get? vars y = some (.int b)) (ha : Number.fitsInt64 a = true) (hb : Number.fitsInt64 b = true)
    (h : op.result? a b = some n) :
    (Number.fitsInt64 n = true → ¬(op = .rem ∧ a = Number.minInt64 ∧ b = -1) →
      evaluateText vars (arithmeticText x op y) = .value (.int n)) ∧
    (op = .rem → a = Number.minInt64 → b = -1 → evaluateText vars (arithmeticText x op y) = .value (.double (-0.0))) ∧
    (Number.fitsInt64 n = false →
      (∃ d, evaluateText vars (arithmeticText x op y) = .value (.double d)) ∨
        evaluateText vars (arithmeticText x op y) = .unevaluated (arithmeticText x op y)) := by
  have htext := evaluateText_arith hx hy hxa hyb op
  rw [Expr.arithmetic?_int h ha hb] at htext
  refine ⟨fun hn hpair => ?_, fun hop hmin hone => ?_, fun hn => ?_⟩
  · rw [if_pos ⟨hn, hpair⟩] at htext
    exact htext
  · have hzero : Expr.approximate? .rem (Float.ofInt Number.minInt64) (Float.ofInt (-1)) = some (.double (-0.0)) := by
      decide +kernel
    subst hop hmin hone
    rw [if_neg fun hexact => hexact.2 ⟨rfl, rfl, rfl⟩, hzero] at htext
    exact htext
  · rw [if_neg fun hexact => by simp [hn] at hexact] at htext
    cases hvalue : Expr.approximate? op (Float.ofInt a) (Float.ofInt b) with
    | none => exact .inr (by rw [htext, hvalue])
    | some v =>
      obtain ⟨d, rfl⟩ := Expr.approximate?_eq_double hvalue
      exact .inl ⟨d, by rw [htext, hvalue]⟩

namespace Sample

/-- a negative number and the greatest integer -/
def greatest : Vars := [("x", .int (-7)), ("y", .int 9223372036854775807)]

/-- the least integer, and what changes the sign -/
def least : Vars := [("x", .int (-9223372036854775808)), ("y", .int (-1))]

end Sample

/-- a remainder that is nearly as great as the divisor, a product that leaves the range, and the pair with `-0.0` -/
theorem evaluateText_arithmetic_greatest :
    evaluateText Sample.greatest (arithmeticText "x" .rem "y") = .value (.int 9223372036854775800) ∧
      ((∃ d, evaluateText Sample.greatest (arithmeticText "x" .mul "y") = .value (.double d)) ∨
        evaluateText Sample.greatest (arithmeticText "x" .mul "y") = .unevaluated (arithmeticText "x" .mul "y")) ∧
      evaluateText Sample.least (arithmeticText "x" .rem "y") = .value (.double (-0.0)) := by
  have hx : Token.IsName "x" := ⟨by decide, 'x', [], rfl, by decide, nofun⟩
  have hy : Token.IsName "y" := ⟨by decide, 'y', [], rfl, by decide, nofun⟩
  have hrem : Arith.result? .rem (-7) 9223372036854775807 = some 9223372036854775800 := by decide
  have hmul : Arith.result? .mul (-7) 9223372036854775807 = some (-64563604257983430649) := by decide
  have hleast : Arith.result? .rem (-9223372036854775808) (-1) = some 0 := by decide
  refine ⟨?_, ?_, ?_⟩
  · exact (evaluateText_arithmetic hx hy rfl rfl (by decide) (by decide) hrem).1 (by decide) (by decide)
  · exact (evaluateText_arithmetic hx hy rfl rfl (by decide) (by decide) hmul).2.2 (by decide)
  · exact (evaluateText_arithmetic hx hy rfl rfl (by decide) (by decide) hleast).2.1 rfl (by decide) rfl

/-- The remainder of the least integer and `-1` is `0`, and no integer is answered for it. -/
theorem evaluateText_remainder_least :
    Arith.result? .rem (-9223372036854775808) (-1) = some 0 ∧ Number.fitsInt64 0 = true ∧
      Dict.get? Sample.least "x" = some (.int (-9223372036854775808)) ∧ Dict.get? Sample.least "y" = some (.int (-1)) ∧
      evaluateText Sample.least "x % y" = .value (.double (-0.0)) := by
  decide +kernel

end Workflows
