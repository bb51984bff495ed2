import Workflows.Proofs.Expr.Placeholder

/-!
# One operator between two names

The text `x + y`, or that of any other operator between two names, has the value of its tree: it has no placeholder, it
is no word for true or false, and its three tokens are read as one expression.

* `truthWord?_of_operator`   a text with the character of an operator in it is no word for true or false;
* `infixText`                the text of an operator between two names.

Main statement: `evaluateText_infix`.
-/

namespace Workflows
open Template Text

/-! ## Words for true and false -/

theorem mem_trimChars {c : Char} {cs : List Char} (h : c ∈ cs) (hc : isBlank c = false) : c ∈ trimChars cs := by
  have hdrop : ∀ ds : List Char, c ∈ ds → c ∈ ds.dropWhile isBlank := by
    intro ds hds
    rw [← List.takeWhile_append_dropWhile (p := isBlank) (l := ds), List.mem_append] at hds
    rcases hds with htake | hdrop
    · rw [List.mem_takeWhile_imp htake] at hc
      cases hc
    · exact hdrop
  exact List.mem_reverse.mpr (hdrop _ (List.mem_reverse.mpr (hdrop cs h)))

theorem mem_lowerChars {c : Char} {cs : List Char} (h : c ∈ cs) (hlower : lowerChar c = [c]) (hsigma : c.toNat ≠ 0x3A3)
    (before : List Char) : c ∈ lowerChars before cs := by
  induction cs generalizing before with
  | nil => cases h
  | cons d cs ih =>
    rw [lowerChars, List.mem_append]
    rcases List.mem_cons.mp h with rfl | hcs
    · left
      rw [if_neg hsigma, hlower]
      exact List.mem_singleton_self c
    · exact .inr (ih hcs _)

/-- the characters of the operators -/
def operators : List Char := ['=', '!', '<', '>', '+', '-', '*', '/', '%']

theorem truthWord?_of_operator {c : Char} {s : String} (hc : c ∈ operators) (h : c ∈ s.toList) :
    truthWord? (lowercase (trim s)) = none := by
  obtain ⟨hblank, hlower, hsigma⟩ : isBlank c = false ∧ lowerChar c = [c] ∧ c.toNat ≠ 0x3A3 := by
    simp only [operators, List.mem_cons, List.not_mem_nil, or_false] at hc
    rcases hc with rfl | rfl | rfl | rfl | rfl | rfl | rfl | rfl | rfl <;> exact ⟨by decide, by decide, by decide⟩
  have hmem : c ∈ (lowercase (trim s)).toList := by
    rw [lowercase, trim, String.toList_ofList, String.toList_ofList]
    exact mem_lowerChars (mem_trimChars h hblank) hlower hsigma []
  have hword : ∀ w ∈ ["true", "yes", "1", "false", "no", "0"], lowercase (trim s) ≠ w := by
    rintro w hw rfl
    have hnone : (["true", "yes", "1", "false", "no", "0"].any fun w => w.toList.any (operators.contains ·)) = false := by
      decide
    exact List.any_eq_false.mp (Bool.eq_false_iff.mpr (List.any_eq_false.mp hnone _ hw)) c hmem
      (List.contains_iff_mem.mpr hc)
  simp only [List.forall_mem_cons] at hword
  simp [truthWord?, hword]

/-! ## The text -/

/-- the text of an operator, with the characters `w`, between two names -/
def infixText (x : String) (w : List Char) (y : String) : String :=
  String.ofList (x.toList ++ ' ' :: (w ++ ' ' :: y.toList))

variable {vars : Vars} {x y : String} {w : List Char} {t : Token}

theorem infixText_fill (vars : Vars) (hx : Token.IsName x) (hy : Token.IsName y) (hdollar : '$' ∉ w) :
    fill vars (infixText x w y) = infixText x w y := by
  have hx' := hx.notMem (show Token.isWordChar '$' = false by decide)
  have hy' := hy.notMem (show Token.isWordChar '$' = false by decide)
  rw [fill, fillChars_of_notMem, String.ofList_toList]
  simp [infixText, hx', hy', hdollar]

theorem infixText_lexAll (hx : Token.IsName x) (hy : Token.IsName y) (hdollar : '$' ∉ w) (hlex : Token.lexAll w = some [t]) :
    Token.lexAll (infixText x w y).toList = some [.name x, t, .name y] := by
  -- any variables will do, since nothing is filled in
  have hop : Cut [] w [t] := .of_notMem hdollar hlex
  have hfill := congrArg String.toList (infixText_fill [] hx hy hdollar)
  rw [fill, String.toList_ofList] at hfill
  rw [← hfill, infixText, String.toList_ofList, hx.cut.lexAll_append, hop.lexAll_append, hy.cut.2]
  rfl

theorem infixText_truthWord? {c : Char} (hc : c ∈ operators) (hw : c ∈ w) :
    truthWord? (lowercase (trim (infixText x w y))) = none :=
  truthWord?_of_operator hc (by simp [infixText, hw])

/-- **An operator between two names has the value of its tree**; without a value it stays as it is. -/
theorem evaluateText_infix {c : Char} {e : Expr} (hx : Token.IsName x) (hy : Token.IsName y) (hdollar : '$' ∉ w)
    (hlex : Token.lexAll w = some [t]) (hc : c ∈ operators) (hw : c ∈ w)
    (D : Expr.Derivation .or [.name x, t, .name y] e) :
    evaluateText vars (infixText x w y) = match Expr.eval? vars e with
      | some v => .value v
      | none => .unevaluated (infixText x w y) := by
  have htokens : Token.tokens? (trim (infixText x w y)) = some [.name x, t, .name y] := by
    rw [Token.tokens?, trim, String.toList_ofList, Token.lexAll_trimChars, infixText_lexAll hx hy hdollar hlex]
    rfl
  have hparse : Expr.parse? [.name x, t, .name y] = some e :=
    Expr.parse?_of_derivation D (D.frames_le_length.trans (show 3 ≤ Expr.maxOpen by decide))
  have hvalue : evaluateFilled? vars (trim (infixText x w y)) = Expr.eval? vars e := by
    simp only [evaluateFilled?, infixText_truthWord? hc hw, Expr.read?, htokens, Option.bind_some, hparse]
  unfold evaluateText
  cases hv : Expr.eval? vars e <;> simp only [infixText_fill vars hx hy hdollar, hvalue, hv]

end Workflows
