import Workflows.Expr.Eval
import Workflows.Proofs.Expr.Reader

/-!
# Runs of comparisons

A run of comparisons such as `a < b <= c` evaluates each operand once and stops behind the first link that does not
hold.  It means the conjunction of its links, `(a < b) and (b <= c)`, in which an operand between two links is evaluated
twice, and which fails where the run does.

* `conjunction`         the links of a run as comparisons of their own, joined by `and`;
* `eval?_chain_cons`    a run is its first link and the rest of the run;
* `eval?_andLinks`      links that are joined one after the other are joined all at once;
* `Operand`             an operand as it is written, with its tree.

Main statements: a run has the value of the conjunction (`eval?_chain`), and the two trees are the ones that are read
where the run and the conjunction are written out (`parse?_run`, `parse?_conjunction`).
-/

namespace Workflows.Expr

/-- an expression and some links, each as a comparison of its own, joined by `and` from the left; `a` is the left
operand of the first link -/
def andLinks (e a : Expr) : List (Cmp × Expr) → Expr
  | [] => e
  | (op, b) :: links => andLinks (.and e (.chain a [(op, b)])) b links

/-- the conjunction of the links of a run, such as `(a < b) and (b <= c)` for `a < b <= c` -/
def conjunction (a : Expr) (op : Cmp) (b : Expr) (links : List (Cmp × Expr)) : Expr :=
  andLinks (.chain a [(op, b)]) b links

/-! ## Values -/

section Values
variable {vars : Vars}

/-- where the left side of `and` is `and` itself, nothing changes in the order in which its parts are evaluated -/
theorem eval?_and_assoc (a b c : Expr) : eval? vars (.and (.and a b) c) = eval? vars (.and a (.and b c)) := by
  simp only [eval?]
  cases eval? vars a with
  | none => rfl
  | some v => cases hv : v.truthy <;> simp [hv]

theorem eval?_and_congr {b c : Expr} (h : eval? vars b = eval? vars c) (a : Expr) :
    eval? vars (.and a b) = eval? vars (.and a c) := by
  simp only [eval?, h]

/-- A run holds where its first link and the rest of it do; the rest evaluates the operand between them once more. -/
theorem eval?_chain_cons (a b : Expr) (op : Cmp) (links : List (Cmp × Expr)) :
    eval? vars (.chain a ((op, b) :: links)) = eval? vars (.and (.chain a [(op, b)]) (.chain b links)) := by
  simp only [eval?, evalLinks?]
  cases eval? vars a with
  | none => rfl
  | some v =>
    cases eval? vars b with
    | none => rfl
    | some w =>
      dsimp only
      -- a link that does not hold, or has no truth, ends both
      cases compare? op v w with
      | none => rfl
      | some holds => cases holds <;> rfl

theorem eval?_andLinks (e a b : Expr) (op : Cmp) (links : List (Cmp × Expr)) :
    eval? vars (andLinks e a ((op, b) :: links)) = eval? vars (.and e (.chain a ((op, b) :: links))) := by
  induction links generalizing e a b op with
  | nil => rfl
  | cons p links ih =>
    obtain ⟨op', c⟩ := p
    calc eval? vars (andLinks e a ((op, b) :: (op', c) :: links))
        = eval? vars (.and (.and e (.chain a [(op, b)])) (.chain b ((op', c) :: links))) := ih _ _ _ _
      _ = eval? vars (.and e (.and (.chain a [(op, b)]) (.chain b ((op', c) :: links)))) := eval?_and_assoc _ _ _
      _ = eval? vars (.and e (.chain a ((op, b) :: (op', c) :: links))) :=
        (eval?_and_congr (eval?_chain_cons _ _ _ _) e).symm

/-- **A run of comparisons means the conjunction of its links**: it has the same value, or fails as well. -/
theorem eval?_chain (vars : Vars) (a : Expr) (op : Cmp) (b : Expr) (links : List (Cmp × Expr)) :
    eval? vars (.chain a ((op, b) :: links)) = eval? vars (conjunction a op b links) := by
  cases links with
  | nil => rfl
  | cons p links =>
    obtain ⟨op', c⟩ := p
    rw [eval?_chain_cons]
    exact (eval?_andLinks _ _ _ _ _).symm

-- `2 < 1 < missing` and `(2 < 1) and (1 < missing)` do not look at the variable, which is missing
example : eval? [] (.chain (.lit (.int 2)) [(.lt, .lit (.int 1)), (.lt, .var "missing")]) = some (.bool false) ∧
    eval? [] (conjunction (.lit (.int 2)) .lt (.lit (.int 1)) [(.lt, .var "missing")]) = some (.bool false) := by
  decide +kernel

end Values

/-! ## Tokens -/

/-- An operand of a comparison as it is written, with its tree; it opens at most `k` places at a time. -/
structure Operand (k : Nat) where
  tokens : List Token
  tree : Expr
  derives : Derives k .sum tokens tree

namespace Operand
variable {k : Nat}

/-- the trees of the operands behind the comparisons -/
def trees (links : List (Cmp × Operand k)) : List (Cmp × Expr) := links.map fun p => (p.1, p.2.tree)

/-- a run of comparisons -/
def run (a : Operand k) (links : List (Cmp × Operand k)) : List Token :=
  a.tokens ++ links.flatMap fun p => .cmp p.1 :: p.2.tokens

/-- a comparison in parentheses -/
def enclosed (a : Operand k) (op : Cmp) (b : Operand k) : List Token :=
  .lparen :: (a.tokens ++ .cmp op :: b.tokens ++ [.rparen])

/-- `and` with a comparison in parentheses for each link -/
def joined (a : Operand k) : List (Cmp × Operand k) → List Token
  | [] => []
  | (op, b) :: links => .and :: (a.enclosed op b ++ joined b links)

/-- the conjunction of the links of a run -/
def conjunction (a : Operand k) (op : Cmp) (b : Operand k) (links : List (Cmp × Operand k)) : List Token :=
  a.enclosed op b ++ b.joined links

theorem derives_links {xs : List Token} {a : Expr} {before : List (Cmp × Expr)} (h : Derives k .links xs (.chain a before))
    (links : List (Cmp × Operand k)) :
    Derives k .links (xs ++ links.flatMap fun p => .cmp p.1 :: p.2.tokens) (.chain a (before ++ trees links)) := by
  induction links generalizing xs before with
  | nil => simpa [trees] using h
  | cons p links ih => simpa [trees] using ih (h.next p.1 p.2.derives)

theorem derives_enclosed (a : Operand k) (op : Cmp) (b : Operand k) :
    Derives (k + 1) .not (a.enclosed op b) (.chain a.tree [(op, b.tree)]) :=
  (a.derives.first op b.derives).chain.ofComparison.ofNot.ofAnd.parens.ofOperand.ofSign.ofProduct.ofSum.ofComparison

theorem derives_joined {xs : List Token} {e : Expr} (h : Derives (k + 1) .and xs e) (a : Operand k)
    (links : List (Cmp × Operand k)) : Derives (k + 1) .and (xs ++ a.joined links) (andLinks e a.tree (trees links)) := by
  induction links generalizing xs e a with
  | nil => simpa [joined, trees, andLinks] using h
  | cons p links ih =>
    obtain ⟨op, b⟩ := p
    simpa [joined, trees, andLinks] using ih (h.and (a.derives_enclosed op b)) b

end Operand

section Read
variable {k : Nat} (a b : Operand k) (op : Cmp) (links : List (Cmp × Operand k))

theorem parse?_of_derives {ts : List Token} {e : Expr} (h : Derives k .or ts e) (hk : k ≤ maxOpen) : parse? ts = some e := by
  obtain ⟨D, hD⟩ := h
  exact parse?_of_derivation D (Nat.le_trans hD hk)

/-- a run that is written out is read as a run -/
theorem parse?_run (hk : k ≤ maxOpen) :
    parse? (a.run ((op, b) :: links)) = some (.chain a.tree ((op, b.tree) :: Operand.trees links)) := by
  have hlinks := Operand.derives_links (a.derives.first op b.derives) links
  refine parse?_of_derives (k := k) ?_ hk
  simpa [Operand.run] using hlinks.chain.ofComparison.ofNot.ofAnd

/-- the conjunction of its links is read as such, where there is one more place for the parentheses -/
theorem parse?_conjunction (hk : k < maxOpen) :
    parse? (a.conjunction op b links) = some (conjunction a.tree op b.tree (Operand.trees links)) :=
  parse?_of_derives (Operand.derives_joined (a.derives_enclosed op b).ofNot b links).ofAnd hk

end Read
end Workflows.Expr
