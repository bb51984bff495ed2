import Mathlib.Data.List.Forall2
import Workflows.Expr.Eval
import Workflows.Proofs.Expr.Grammar

/-!
# Names replaced by the integers they stand for

Some of the names `x` in the tokens of an expression become the tokens of the integer that `x` is bound to.  A
negative integer is two tokens, so an operand becomes a signed operand; no other layer of the grammar changes.

* `Token.ofInt`     the tokens of an integer: a minus sign in front of a negative one;
* `Respelt x n`     the same tokens, but for some names `x` that are the integer `n`;
* `SameValue`       expressions with one value, in runs of comparisons link by link.

Main statement: what is derived is still derived, in its layer or the next one, with a tree of the same value
(`Derivation.respells`).
-/

namespace Workflows

/-- the tokens of an integer -/
def Token.ofInt (n : Int) : List Token := if n < 0 then [.arith .sub, .int (-n)] else [.int n]

namespace Expr

/-! ## Tokens -/

/-- the same tokens, but for some names `x` that are the integer `n` -/
inductive Respelt (x : String) (n : Int) : List Token → List Token → Prop
  | nil : Respelt x n [] []
  | keep (t : Token) {ts us : List Token} (h : Respelt x n ts us) : Respelt x n (t :: ts) (t :: us)
  | swap {ts us vs : List Token} (h : Respelt x n ts us) (hvs : vs = Token.ofInt n ++ us) :
      Respelt x n (.name x :: ts) vs

namespace Respelt
variable {x : String} {n : Int} {t : Token} {ts xs ys us vs : List Token}

theorem refl (ts : List Token) : Respelt x n ts ts := by
  induction ts with
  | nil => exact .nil
  | cons t ts ih => exact .keep t ih

theorem append (hx : Respelt x n xs us) (hy : Respelt x n ys vs) : Respelt x n (xs ++ ys) (us ++ vs) := by
  induction hx with
  | nil => exact hy
  | keep t _ ih => exact .keep t ih
  | swap _ hvs ih => exact .swap ih (by rw [hvs, List.append_assoc])

theorem append_inv (h : Respelt x n (xs ++ ys) us) :
    ∃ us₁ us₂, us = us₁ ++ us₂ ∧ Respelt x n xs us₁ ∧ Respelt x n ys us₂ := by
  induction xs generalizing us with
  | nil => exact ⟨[], us, rfl, .nil, h⟩
  | cons t xs ih =>
    cases h with
    | keep _ h =>
      obtain ⟨us₁, us₂, rfl, hx, hy⟩ := ih h
      exact ⟨t :: us₁, us₂, rfl, .keep t hx, hy⟩
    | swap h hus =>
      obtain ⟨us₁, us₂, rfl, hx, hy⟩ := ih h
      exact ⟨Token.ofInt n ++ us₁, us₂, by rw [hus, List.append_assoc], .swap hx rfl, hy⟩

theorem cons_inv (ht : ∀ s, t ≠ .name s) (h : Respelt x n (t :: ts) us) :
    ∃ vs, us = t :: vs ∧ Respelt x n ts vs := by
  cases h with
  | keep _ h => exact ⟨_, rfl, h⟩
  | swap => exact absurd rfl (ht x)

/-- an operator between two operands stays -/
theorem infix_inv (ht : ∀ s, t ≠ .name s) (h : Respelt x n (xs ++ t :: ys) us) :
    ∃ us₁ us₂, us = us₁ ++ t :: us₂ ∧ Respelt x n xs us₁ ∧ Respelt x n ys us₂ := by
  obtain ⟨us₁, vs, rfl, hx, hvs⟩ := h.append_inv
  obtain ⟨us₂, rfl, hy⟩ := hvs.cons_inv ht
  exact ⟨us₁, us₂, rfl, hx, hy⟩

end Respelt

/-! ## Values -/

/-- one link beside another of the same value -/
def SameLink (vars : Vars) (p q : Cmp × Expr) : Prop := q.1 = p.1 ∧ eval? vars q.2 = eval? vars p.2

/-- Two expressions have the same value, and if one is a run of comparisons, so is the other, link by link: such a run
can go on with one more link. -/
structure SameValue (vars : Vars) (e e' : Expr) : Prop where
  eval : eval? vars e' = eval? vars e
  run : ∀ a links, e = .chain a links → ∃ a' links', e' = .chain a' links' ∧ eval? vars a' = eval? vars a ∧
    List.Forall₂ (SameLink vars) links links'

variable {vars : Vars} {a a' b b' e e' : Expr}

theorem evalLinks?_same {links links' : List (Cmp × Expr)} (h : List.Forall₂ (SameLink vars) links links') (v : Json) :
    evalLinks? vars v links' = evalLinks? vars v links := by
  induction h generalizing v with
  | nil => rfl
  | @cons p q links links' hp _ ih =>
    obtain ⟨op, e⟩ := p
    obtain ⟨op', e'⟩ := q
    obtain ⟨rfl, he⟩ := hp
    simp only at he
    simp only [evalLinks?, he, ih]

namespace SameValue

theorem chain {links links' : List (Cmp × Expr)} (ha : eval? vars a' = eval? vars a)
    (hlinks : List.Forall₂ (SameLink vars) links links') : SameValue vars (.chain a links) (.chain a' links') where
  eval := by simp only [eval?, ha, evalLinks?_same hlinks]
  run := fun _ _ heq => by
    cases heq
    exact ⟨a', links', rfl, ha, hlinks⟩

end SameValue

/-! ## Derivations -/

/-- the layer that a phrase is in when an operand may have got a sign -/
def Layer.signed : Layer → Layer
  | .operand => .sign
  | l => l

/-- however some names `x` among these tokens become the integer `n`, an expression of the same value is derived -/
def Respells (vars : Vars) (x : String) (n : Int) (l : Layer) (ts : List Token) (e : Expr) : Prop :=
  ∀ us, Respelt x n ts us → ∃ e', SameValue vars e e' ∧ Nonempty (Derivation l.signed us e')

namespace Respells
variable {x : String} {n : Int} {l l₁ l₂ : Layer} {t : Token} {ts xs ys : List Token}

/-- an operator between two operands -/
theorem operator (ha : Respells vars x n l₁ xs a) (ht : ∀ s, t ≠ .name s) (hb : Respells vars x n l₂ ys b)
    (hstep : ∀ us₁ us₂ a' b', SameValue vars a a' → SameValue vars b b' →
      Derivation l₁.signed us₁ a' → Derivation l₂.signed us₂ b' →
      ∃ e', SameValue vars e e' ∧ Nonempty (Derivation l.signed (us₁ ++ t :: us₂) e')) :
    Respells vars x n l (xs ++ t :: ys) e := by
  intro us h
  obtain ⟨us₁, us₂, rfl, h₁, h₂⟩ := h.infix_inv ht
  obtain ⟨a', haa, ⟨D₁⟩⟩ := ha us₁ h₁
  obtain ⟨b', hbb, ⟨D₂⟩⟩ := hb us₂ h₂
  exact hstep us₁ us₂ a' b' haa hbb D₁ D₂

/-- a sign or `not` in front -/
theorem sign (ha : Respells vars x n l ts a) (ht : ∀ s, t ≠ .name s)
    (hstep : ∀ us a', SameValue vars a a' → Derivation l.signed us a' →
      ∃ e', SameValue vars e e' ∧ Nonempty (Derivation l₁.signed (t :: us) e')) :
    Respells vars x n l₁ (t :: ts) e := by
  intro us h
  obtain ⟨vs, rfl, hvs⟩ := h.cons_inv ht
  obtain ⟨a', haa, ⟨D⟩⟩ := ha vs hvs
  exact hstep vs a' haa D

/-- a phrase of one layer as a phrase of another -/
theorem lift (h : Respells vars x n l ts e) (hstep : ∀ us e', Derivation l.signed us e' → Derivation l₁.signed us e') :
    Respells vars x n l₁ ts e := by
  intro us hus
  obtain ⟨e', he, ⟨D⟩⟩ := h us hus
  exact ⟨e', he, ⟨hstep us e' D⟩⟩

theorem parens (h : Respells vars x n .or ts e) : Respells vars x n .operand (.lparen :: (ts ++ [.rparen])) e := by
  intro us hus
  obtain ⟨vs, rfl, hvs⟩ := hus.cons_inv (by simp)
  obtain ⟨us₁, us₂, rfl, h₁, h₂⟩ := hvs.infix_inv (by simp)
  obtain rfl : us₂ = [] := by cases h₂; rfl
  obtain ⟨e', he, ⟨D⟩⟩ := h us₁ h₁
  exact ⟨e', he, ⟨.ofOperand (.parens D)⟩⟩

theorem literal {v : Json} (h : Literal t v) : Respells vars x n .operand [t] (.lit v) := by
  intro us hus
  obtain ⟨vs, rfl, hvs⟩ := hus.cons_inv (by cases h <;> simp)
  obtain rfl : vs = [] := by cases hvs; rfl
  exact ⟨.lit v, ⟨rfl, by simp⟩, ⟨.ofOperand (.literal h)⟩⟩

/-- the name itself, or the integer, which is negated where it is negative -/
theorem name (hx : Dict.get? vars x = some (.int n)) (hmin : Number.minInt64 < n) (hmax : n ≤ Number.maxInt64)
    (s : String) : Respells vars x n .operand [.name s] (.var s) := by
  intro us hus
  cases hus with
  | keep _ h =>
    cases h
    exact ⟨.var s, ⟨rfl, by simp⟩, ⟨.ofOperand (.name s)⟩⟩
  | swap h hus =>
    cases h
    rw [hus, List.append_nil, Token.ofInt]
    split
    · next hneg =>
      have hbounds : Number.minInt64 = -Number.maxInt64 - 1 := by decide
      have hfits : Number.fitsInt64 (-n) = true := by
        simp only [Number.fitsInt64, Bool.and_eq_true, decide_eq_true_eq]
        omega
      have hne : -n ≠ Number.minInt64 := by omega
      have heval : eval? vars (.neg (.lit (.int (-n)))) = some (.int n) := by simp [eval?, negate?, hfits, hne]
      exact ⟨_, ⟨by rw [heval, eval?, hx], by simp⟩, ⟨.minus (.ofOperand (.literal (.int (-n))))⟩⟩
    · exact ⟨.lit (.int n), ⟨by rw [eval?, eval?, hx], by simp⟩, ⟨.ofOperand (.literal (.int n))⟩⟩

end Respells

/-- **What is derived with a name is derived with the integer it is bound to, and has the same value.** -/
theorem Derivation.respells {x : String} {n : Int} {l : Layer} {ts : List Token} (D : Derivation l ts e)
    (hx : Dict.get? vars x = some (.int n)) (hmin : Number.minInt64 < n) (hmax : n ≤ Number.maxInt64) :
    Respells vars x n l ts e := by
  induction D with
  | or _ _ iha ihb =>
    exact iha.operator (by simp) ihb fun us₁ us₂ a' b' ha hb D₁ D₂ =>
      ⟨.or a' b', ⟨by simp only [eval?, ha.eval, hb.eval], by simp⟩, ⟨.or D₁ D₂⟩⟩
  | and _ _ iha ihb =>
    exact iha.operator (by simp) ihb fun us₁ us₂ a' b' ha hb D₁ D₂ =>
      ⟨.and a' b', ⟨by simp only [eval?, ha.eval, hb.eval], by simp⟩, ⟨.and D₁ D₂⟩⟩
  | first op _ _ iha ihb =>
    exact iha.operator (by simp) ihb fun us₁ us₂ a' b' ha hb D₁ D₂ =>
      ⟨.chain a' [(op, b')], .chain ha.eval (.cons ⟨rfl, hb.eval⟩ .nil), ⟨.first op D₁ D₂⟩⟩
  | next op _ _ iha ihb =>
    refine iha.operator (by simp) ihb fun us₁ us₂ e' b' he hb D₁ D₂ => ?_
    obtain ⟨a', links', rfl, ha, hlinks⟩ := he.run _ _ rfl
    exact ⟨.chain a' (links' ++ [(op, b')]), .chain ha (List.rel_append hlinks (.cons ⟨rfl, hb.eval⟩ .nil)),
      ⟨.next op D₁ D₂⟩⟩
  | sum hop _ _ iha ihb =>
    exact iha.operator (by simp) ihb fun us₁ us₂ a' b' ha hb D₁ D₂ =>
      ⟨.arith _ a' b', ⟨by simp only [eval?, ha.eval, hb.eval], by simp⟩, ⟨.sum hop D₁ D₂⟩⟩
  | product hop _ _ iha ihb =>
    exact iha.operator (by simp) ihb fun us₁ us₂ a' b' ha hb D₁ D₂ =>
      ⟨.arith _ a' b', ⟨by simp only [eval?, ha.eval, hb.eval], by simp⟩, ⟨.product hop D₁ D₂⟩⟩
  | not _ ih =>
    exact ih.sign (by simp) fun us e' he D => ⟨.not e', ⟨by simp only [eval?, he.eval], by simp⟩, ⟨.not D⟩⟩
  | minus _ ih =>
    exact ih.sign (by simp) fun us e' he D => ⟨.neg e', ⟨by simp only [eval?, he.eval], by simp⟩, ⟨.minus D⟩⟩
  | plus _ ih => exact ih.sign (by simp) fun us e' he D => ⟨e', he, ⟨.plus D⟩⟩
  | ofAnd _ ih => exact ih.lift fun _ _ D => .ofAnd D
  | ofNot _ ih => exact ih.lift fun _ _ D => .ofNot D
  | ofComparison _ ih => exact ih.lift fun _ _ D => .ofComparison D
  | chain _ ih => exact ih.lift fun _ _ D => .chain D
  | ofSum _ ih => exact ih.lift fun _ _ D => .ofSum D
  | ofProduct _ ih => exact ih.lift fun _ _ D => .ofProduct D
  | ofSign _ ih => exact ih.lift fun _ _ D => .ofSign D
  -- the operand may have got a sign, and then it is a phrase of the layer above already
  | ofOperand _ ih => exact ih.lift fun _ _ D => D
  | parens _ ih => exact ih.parens
  | literal h => exact .literal h
  | name s => exact .name hx hmin hmax s

end Expr
end Workflows
