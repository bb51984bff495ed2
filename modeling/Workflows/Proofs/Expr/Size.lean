import Workflows.Expr.Template
import Workflows.Proofs.Expr.Grammar

/-!
# The size of expressions

A tree has no more nodes than tokens, whatever operators, signs, chains and parentheses it was read from.  A text has a
bounded number of tokens, so the calls that evaluate it are nested to a bounded depth.

* `Expr.size`             the number of nodes;
* `Derivation.size_le`    which the tokens of a derivation bound;
* `Expr.evalWithin?`      evaluation with a limit on the calls that are open at the same time.

Main statement: no text, and no text that variables are filled into, takes more than `maxTokens` of them
(`evaluation_bounded`).
-/

namespace Workflows

namespace Expr

/-! ## Nodes and tokens -/

mutual
/-- the number of nodes of an expression -/
def size : Expr → Nat
  | .lit _ | .var _ => 1
  | .not e | .neg e => e.size + 1
  | .and a b | .or a b | .arith _ a b => a.size + b.size + 1
  | .chain first links => first.size + sizeLinks links + 1

/-- the number of nodes of the operands in the links of a chain -/
def sizeLinks : List (Cmp × Expr) → Nat
  | [] => 0
  | (_, e) :: links => e.size + sizeLinks links
end

theorem sizeLinks_concat (links : List (Cmp × Expr)) (op : Cmp) (e : Expr) :
    sizeLinks (links ++ [(op, e)]) = sizeLinks links + e.size := by
  induction links with
  | nil => simp only [List.nil_append, sizeLinks, Nat.add_zero, Nat.zero_add]
  | cons link links ih => simp only [List.cons_append, sizeLinks, ih, Nat.add_assoc]

/-- **Every node of a tree has a token of its own**: its operator, or the token of the operand. -/
theorem Derivation.size_le {l : Layer} {ts : List Token} {e : Expr} (D : Derivation l ts e) : e.size ≤ ts.length := by
  induction D with
  | or _ _ ihx ihy | and _ _ ihx ihy | sum _ _ _ ihx ihy | product _ _ _ ihx ihy =>
    simp only [size, List.length_append, List.length_cons]
    omega
  | first _ _ _ ihx ihy =>
    simp only [size, sizeLinks, List.length_append, List.length_cons]
    omega
  | next _ _ _ ihx ihy =>
    simp only [size] at ihx
    simp only [size, sizeLinks_concat, List.length_append, List.length_cons]
    omega
  | not _ ih | minus _ ih =>
    simp only [size, List.length_cons]
    omega
  | plus _ ih => exact Nat.le_succ_of_le ih
  | parens _ ih =>
    simp only [List.length_cons, List.length_append, List.length_nil]
    omega
  | literal | name => exact Nat.le_refl 1
  | ofAnd _ ih | ofNot _ ih | ofComparison _ ih | chain _ ih | ofSum _ ih | ofProduct _ ih | ofSign _ ih
  | ofOperand _ ih => exact ih

theorem size_le_of_parse? {ts : List Token} {e : Expr} (h : parse? ts = some e) : e.size ≤ ts.length :=
  (derives_of_parse? h).choose.size_le

/-! ## Nested evaluations -/

variable {vars : Vars}

mutual
/-- the value of an expression where at most `limit` evaluations are open at the same time, or nothing if it takes more -/
def evalWithin? (vars : Vars) : Nat → Expr → Option (Option Json)
  | 0, _ => none
  | _ + 1, .lit v => some (some v)
  | _ + 1, .var name => some (Dict.get? vars name)
  | limit + 1, .not e => (evalWithin? vars limit e).map (·.map fun v => .bool (!v.truthy))
  | limit + 1, .neg e => (evalWithin? vars limit e).map (·.bind negate?)
  | limit + 1, .and a b => match evalWithin? vars limit a with
    | some (some v) => if v.truthy then evalWithin? vars limit b else some (some v)
    | answer => answer
  | limit + 1, .or a b => match evalWithin? vars limit a with
    | some (some v) => if v.truthy then some (some v) else evalWithin? vars limit b
    | answer => answer
  | limit + 1, .arith op a b => match evalWithin? vars limit a, evalWithin? vars limit b with
    | some (some v), some (some w) => some (arithmetic? op v w)
    | some _, some _ => some none
    | _, _ => none
  | limit + 1, .chain first links => match evalWithin? vars limit first with
    | some (some v) => evalLinksWithin? vars limit v links
    | answer => answer
termination_by limit => (limit, 0)

/-- the rest of a chain; its operands are evaluated one after the other -/
def evalLinksWithin? (vars : Vars) : Nat → Json → List (Cmp × Expr) → Option (Option Json)
  | _, _, [] => some (some (.bool true))
  | limit, left, (op, e) :: links => match evalWithin? vars limit e with
    | some (some right) => match compare? op left right with
      | some true => evalLinksWithin? vars limit right links
      | some false => some (some (.bool false))
      | none => some none
    | answer => answer
termination_by limit _ links => (limit, links.length + 1)
end

mutual
/-- Each evaluation opens others only for smaller trees, so as many as there are nodes are enough. -/
theorem evalWithin?_eq {limit : Nat} (e : Expr) (h : e.size ≤ limit) : evalWithin? vars limit e = some (eval? vars e) := by
  cases limit with
  | zero => cases e <;> simp [size] at h
  | succ limit =>
    cases e with
    | lit v => rw [evalWithin?, eval?]
    | var name => rw [evalWithin?, eval?]
    | not e =>
      rw [size] at h
      rw [evalWithin?, eval?, evalWithin?_eq e (by omega), Option.map_some]
    | neg e =>
      rw [size] at h
      rw [evalWithin?, eval?, evalWithin?_eq e (by omega), Option.map_some]
    | and a b =>
      rw [size] at h
      rw [evalWithin?, eval?, evalWithin?_eq a (by omega), evalWithin?_eq b (by omega)]
      cases eval? vars a with
      | none => rfl
      | some v => exact (apply_ite some _ _ _).symm
    | or a b =>
      rw [size] at h
      rw [evalWithin?, eval?, evalWithin?_eq a (by omega), evalWithin?_eq b (by omega)]
      cases eval? vars a with
      | none => rfl
      | some v => exact (apply_ite some _ _ _).symm
    | arith op a b =>
      rw [size] at h
      rw [evalWithin?, eval?, evalWithin?_eq a (by omega), evalWithin?_eq b (by omega)]
      cases eval? vars a <;> cases eval? vars b <;> rfl
    | chain first links =>
      rw [size] at h
      rw [evalWithin?, eval?, evalWithin?_eq first (by omega)]
      cases eval? vars first with
      | none => rfl
      | some v => exact evalLinksWithin?_eq v links (by omega)

theorem evalLinksWithin?_eq {limit : Nat} (left : Json) (links : List (Cmp × Expr)) (h : sizeLinks links ≤ limit) :
    evalLinksWithin? vars limit left links = some (evalLinks? vars left links) := by
  cases links with
  | nil => rw [evalLinksWithin?, evalLinks?]
  | cons link links =>
    obtain ⟨op, e⟩ := link
    rw [sizeLinks] at h
    rw [evalLinksWithin?, evalLinks?, evalWithin?_eq e (by omega)]
    cases eval? vars e with
    | none => rfl
    | some right =>
      simp only
      cases compare? op left right with
      | none => rfl
      | some holds =>
        cases holds with
        | false => rfl
        | true => exact evalLinksWithin?_eq right links (by omega)
end

end Expr

/-! ## Texts -/

/-- what a text evaluates to where at most `limit` evaluations are open at the same time, or nothing if it takes more -/
def evaluateTextWithin? (limit : Nat) (vars : Vars) (text : String) : Option Evaluation :=
  let filled := Template.fill vars text
  match truthWord? (Text.lowercase (Text.trim filled)) with
  | some b => some (.value (.bool b))
  | none => match Expr.read? (Text.trim filled) with
    | none => some (.unevaluated filled)
    | some e => (e.evalWithin? vars limit).map fun
      | some v => .value v
      | none => .unevaluated filled

theorem Token.length_le_of_tokens? {s : String} {ts : List Token} (h : tokens? s = some ts) : ts.length ≤ maxTokens := by
  unfold tokens? at h
  split at h
  · split at h
    · next hlen =>
      cases h
      exact hlen
    · cases h
  · cases h

theorem Expr.size_le_of_read? {s : String} {e : Expr} (h : read? s = some e) : e.size ≤ Token.maxTokens := by
  obtain ⟨ts, hts, he⟩ := Option.bind_eq_some_iff.mp h
  exact Nat.le_trans (size_le_of_parse? he) (Token.length_le_of_tokens? hts)

theorem evaluateTextWithin?_eq (vars : Vars) (text : String) :
    evaluateTextWithin? Token.maxTokens vars text = some (evaluateText vars text) := by
  unfold evaluateTextWithin? evaluateText evaluateFilled?
  simp only
  cases truthWord? (Text.lowercase (Text.trim (Template.fill vars text))) with
  | some b => rfl
  | none =>
    cases he : Expr.read? (Text.trim (Template.fill vars text)) with
    | none => rfl
    | some e =>
      have heval : e.evalWithin? vars Token.maxTokens = some (e.eval? vars) :=
        e.evalWithin?_eq (Expr.size_le_of_read? he)
      rw [Option.bind_some]
      generalize e.eval? vars = result at heval ⊢
      simp only [heval]
      cases result with
      | none => rfl
      | some v => rfl

/-- **A tree has at most as many nodes as tokens, and evaluation is nested no deeper than that**, whatever the variables
put into a text. -/
theorem evaluation_bounded (vars : Vars) (text : String) :
    (∀ s ts e, Token.tokens? s = some ts → Expr.parse? ts = some e →
      e.size ≤ ts.length ∧ ts.length ≤ Token.maxTokens ∧ e.evalWithin? vars ts.length = some (e.eval? vars)) ∧
    evaluateTextWithin? Token.maxTokens vars text = some (evaluateText vars text) := by
  refine ⟨fun s ts e hts he => ?_, evaluateTextWithin?_eq vars text⟩
  have hsize := Expr.size_le_of_parse? he
  exact ⟨hsize, Token.length_le_of_tokens? hts, e.evalWithin?_eq hsize⟩

namespace Sample

/-- the tokens of `not (-3 < 2 <= x + 1) or done` -/
def mixedTokens : List Token :=
  [.not, .lparen, .arith .sub, .int 3, .cmp .lt, .int 2, .cmp .le, .name "x", .arith .add, .int 1, .rparen, .or,
    .name "done"]

def mixed : Expr :=
  .or (.not (.chain (.neg (.lit (.int 3))) [(.lt, .lit (.int 2)), (.le, .arith .add (.var "x") (.lit (.int 1)))]))
    (.var "done")

def mixedVars : Vars := [("done", .bool false), ("x", .int 3)]

end Sample

theorem evaluation_bounded_mixed :
    Token.tokens? "not (-3 < 2 <= x + 1) or done" = some Sample.mixedTokens ∧
    Expr.parse? Sample.mixedTokens = some Sample.mixed ∧ Sample.mixed.size = 10 ∧ Sample.mixedTokens.length = 13 ∧
    Sample.mixed.evalWithin? Sample.mixedVars 13 = some (Sample.mixed.eval? Sample.mixedVars) := by
  have hts : Token.tokens? "not (-3 < 2 <= x + 1) or done" = some Sample.mixedTokens := by decide +kernel
  have he : Expr.parse? Sample.mixedTokens = some Sample.mixed := by with_unfolding_all rfl
  obtain ⟨hparsed, -⟩ := evaluation_bounded Sample.mixedVars "done"
  exact ⟨hts, he, rfl, rfl, (hparsed _ _ _ hts he).2.2⟩

end Workflows
