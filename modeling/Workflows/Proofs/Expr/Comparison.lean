import Workflows.Proofs.Expr.Infix
import Workflows.Proofs.Number.Doubles

/-!
# Comparisons of integers

Sums and products of integers are computed with integers, while comparisons are made with doubles.  A comparison
therefore does not tell integers apart that have the same nearest double.

* `Cmp.holds`             a comparison between integers;
* `compare?_int`          integers are compared as their nearest integers with 53 significant bits;
* `compare?_int_exact`    which are the integers themselves up to `2^53`;
* `compare?_int_of_le`    and never the other way round.

Main statement: what the text of a comparison of two variables evaluates to (`evaluateText_comparison`).
-/

namespace Workflows
open Template Text

/-- whether a comparison holds between integers -/
def Cmp.holds (op : Cmp) (a b : Int) : Bool :=
  match op with
  | .eq => a = b
  | .ne => a ≠ b
  | .gt => a > b
  | .lt => a < b
  | .ge => a ≥ b
  | .le => a ≤ b

variable {a b : Int} {op : Cmp}

/-! ## Values -/

theorem order?_int (ha : a.natAbs < 2 ^ 64) (hb : b.natAbs < 2 ^ 64) :
    (Json.int a).order? (.int b) = some (compare (Number.nearest a) (Number.nearest b)) := by
  simp only [Json.order?, Json.double?, Number.ofInt_lt_iff ha hb, Number.ofInt_beq_iff ha hb]
  rcases lt_trichotomy (Number.nearest a) (Number.nearest b) with hlt | heq | hgt
  · rw [if_pos hlt, compare_lt_iff_lt.mpr hlt]
  · rw [if_neg (by omega), if_pos heq, compare_eq_iff_eq.mpr heq]
  · rw [if_neg (by omega), if_neg (by omega), compare_gt_iff_gt.mpr hgt]

namespace Expr

theorem compare?_int (ha : a.natAbs < 2 ^ 64) (hb : b.natAbs < 2 ^ 64) (op : Cmp) :
    compare? op (.int a) (.int b) = some (op.holds (Number.nearest a) (Number.nearest b)) := by
  rcases lt_trichotomy (Number.nearest a) (Number.nearest b) with hlt | heq | hgt
  · cases op <;> simp [compare?, order?_int ha hb, Cmp.holds, compare_lt_iff_lt.mpr hlt, hlt, hlt.ne, hlt.le]
  · cases op <;> simp [compare?, order?_int ha hb, Cmp.holds, heq]
  · cases op <;> simp [compare?, order?_int ha hb, Cmp.holds, compare_gt_iff_gt.mpr hgt, hgt, hgt.ne', hgt.le]

/-- integers up to `2 ^ 53` are compared exactly -/
theorem compare?_int_exact (ha : a.natAbs ≤ 2 ^ 53) (hb : b.natAbs ≤ 2 ^ 53) (op : Cmp) :
    compare? op (.int a) (.int b) = some (op.holds a b) := by
  rw [compare?_int (by omega) (by omega), Number.nearest_eq_self ha, Number.nearest_eq_self hb]

/-- the order of two integers can be lost, but is never reversed -/
theorem compare?_int_of_le (ha : a.natAbs < 2 ^ 64) (hb : b.natAbs < 2 ^ 64) (h : a ≤ b) :
    compare? .le (.int a) (.int b) = some true ∧ compare? .gt (.int a) (.int b) = some false := by
  have hmono := Number.nearest_mono h
  rw [compare?_int ha hb, compare?_int ha hb]
  simp [Cmp.holds, hmono]

end Expr

/-! ## Texts -/

/-- the text of a comparison of two variables -/
def comparisonText (x : String) (op : Cmp) (y : String) : String :=
  String.ofList (x.toList ++ ' ' :: (op.symbol ++ ' ' :: y.toList))

variable {vars : Vars} {x y : String}

theorem comparisonText_eq (x : String) (op : Cmp) (y : String) : comparisonText x op y = infixText x op.symbol y := rfl

theorem comparisonText_fill (vars : Vars) (hx : Token.IsName x) (hy : Token.IsName y) (op : Cmp) :
    fill vars (comparisonText x op y) = infixText x op.symbol y := by
  rw [comparisonText_eq, infixText_fill vars hx hy (by cases op <;> decide)]

theorem comparisonText_tokens (hx : Token.IsName x) (hy : Token.IsName y) (op : Cmp) :
    Token.lexAll (fillChars vars (comparisonText x op y).toList) = some [.name x, .cmp op, .name y] := by
  have hfill := congrArg String.toList (comparisonText_fill vars hx hy op)
  rw [fill, String.toList_ofList] at hfill
  rw [hfill, infixText_lexAll hx hy (by cases op <;> decide) (Token.lexAll_symbol op)]

theorem comparisonText_truthWord? (hx : Token.IsName x) (hy : Token.IsName y) (op : Cmp) :
    truthWord? (lowercase (trim (fill vars (comparisonText x op y)))) = none := by
  obtain ⟨c, hc, hsymbol⟩ : ∃ c ∈ operators, c ∈ op.symbol := by
    cases op <;> exact ⟨_, by simp [operators], List.mem_cons_self⟩
  rw [comparisonText_fill vars hx hy, infixText_truthWord? hc hsymbol]

/-- **Two variables with integers are compared as the nearest integers with 53 significant bits.** -/
theorem evaluateText_comparison (hx : Token.IsName x) (hy : Token.IsName y) (hxa : Dict.get? vars x = some (.int a))
    (hyb : Dict.get? vars y = some (.int b)) (ha : Number.minInt64 ≤ a ∧ a < Number.wordCount)
    (hb : Number.minInt64 ≤ b ∧ b < Number.wordCount) (op : Cmp) :
    evaluateText vars (comparisonText x op y) = .value (.bool (op.holds (Number.nearest a) (Number.nearest b))) := by
  have hlex : Token.lexAll (fill vars (comparisonText x op y)).toList = some [.name x, .cmp op, .name y] := by
    rw [fill, String.toList_ofList, comparisonText_tokens hx hy]
  let D : Expr.Derivation .or [.name x, .cmp op, .name y] (.chain (.var x) [(op, .var y)]) :=
    .ofAnd (.ofNot (.ofComparison (.chain (.first op (.ofProduct (.ofSign (.ofOperand (.name x))))
      (.ofProduct (.ofSign (.ofOperand (.name y))))))))
  have hbounds : Number.minInt64 = -2 ^ 63 ∧ Number.wordCount = 2 ^ 64 := by decide
  have hcompare : Expr.compare? op (.int a) (.int b) = some (op.holds (Number.nearest a) (Number.nearest b)) :=
    Expr.compare?_int (by omega) (by omega) op
  have heval : Expr.eval? vars (.chain (.var x) [(op, .var y)]) =
      some (.bool (op.holds (Number.nearest a) (Number.nearest b))) := by
    rw [Expr.eval?, Expr.eval?, hxa]
    simp only [Expr.evalLinks?, Expr.eval?, hyb, hcompare]
    cases op.holds (Number.nearest a) (Number.nearest b) <;> rfl
  refine evaluateText_eq_value.mpr ((evaluateFilled?_eq_some (comparisonText_truthWord? hx hy op)).mpr ?_)
  exact ⟨_, _, hlex, by simp [Token.maxTokens], Expr.parse?_of_derivation D (Nat.zero_le _), heval⟩

namespace Sample

/-- the least and the greatest integer of a document -/
def ends : Vars := [("x", .int (-9223372036854775808)), ("y", .int 18446744073709551615)]

/-- the first two integers with the same nearest double -/
def neighbours : Vars := [("x", .int 9007199254740993), ("y", .int 9007199254740992)]

end Sample

/-- the ends of the range are told apart -/
theorem evaluateText_comparison_ends :
    evaluateText Sample.ends (comparisonText "x" .lt "y") = .value (.bool true) := by
  have hx : Token.IsName "x" := ⟨by decide, 'x', [], rfl, by decide, nofun⟩
  have hy : Token.IsName "y" := ⟨by decide, 'y', [], rfl, by decide, nofun⟩
  have hholds : Cmp.holds .lt (Number.nearest (-9223372036854775808)) (Number.nearest 18446744073709551615) = true := by
    decide +kernel
  rw [evaluateText_comparison hx hy rfl rfl (by decide) (by decide) .lt, hholds]

/-- Beyond `2^53` two integers can be equal in a comparison, though not in a difference. -/
theorem evaluateText_comparison_neighbours :
    evaluateText Sample.neighbours "x == y" = .value (.bool true) ∧
      evaluateText Sample.neighbours "x - y" = .value (.int 1) := by
  decide +kernel

end Workflows
