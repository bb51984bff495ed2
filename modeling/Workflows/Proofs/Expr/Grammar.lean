import Workflows.Expr.Syntax

/-!
# The grammar of expressions

Which lists of tokens are expressions, and with which trees, said without a reader: one layer for each strength of
operators, from `or` down to the operands.

* `Layer`, `Derivation`   the layers, and how a list of tokens is derived in one of them with a tree;
* `Derivation.frames`     how many `not`, minus signs and parentheses are open at the same time;
* `Derives`               derived with at most so many of them open;
* `parseOr_extends`       and its kin: what a reader takes from the front of the tokens is derived.

Main statement: a tree that is read is derived (`derives_of_parse?`).
-/

namespace Workflows.Expr

/-! ## Derivations -/

/-- The layers of the grammar, from the weakest operators to the operands.  A run of comparisons has a layer of its
own, `links`, so that a comparison in parentheses is an operand of the run and no part of it. -/
inductive Layer where
  | or | and | not | comparison | links | sum | product | sign | operand

/-- The tokens that are literals, and their values. -/
inductive Literal : Token → Json → Prop
  | int (n : Int) : Literal (.int n) (.int n)
  | double {x : Float} (hx : x.isFinite = true) : Literal (.double x) (.double x)
  | text (s : String) : Literal (.text s) (.str s)
  | yes : Literal .yes (.bool true)
  | no : Literal .no (.bool false)
  | null : Literal .null .null

/-- How a list of tokens is derived in a layer, and the tree that it stands for.  Binary operators group to the left
because their left operand is of the same layer and their right operand of the next one. -/
inductive Derivation : Layer → List Token → Expr → Type
  | or {xs ys : List Token} {a b : Expr} (x : Derivation .or xs a) (y : Derivation .and ys b) :
      Derivation .or (xs ++ .or :: ys) (.or a b)
  | ofAnd {ts : List Token} {e : Expr} (x : Derivation .and ts e) : Derivation .or ts e
  | and {xs ys : List Token} {a b : Expr} (x : Derivation .and xs a) (y : Derivation .not ys b) :
      Derivation .and (xs ++ .and :: ys) (.and a b)
  | ofNot {ts : List Token} {e : Expr} (x : Derivation .not ts e) : Derivation .and ts e
  | not {ts : List Token} {e : Expr} (x : Derivation .not ts e) : Derivation .not (.not :: ts) (.not e)
  | ofComparison {ts : List Token} {e : Expr} (x : Derivation .comparison ts e) : Derivation .not ts e
  | chain {ts : List Token} {e : Expr} (x : Derivation .links ts e) : Derivation .comparison ts e
  | ofSum {ts : List Token} {e : Expr} (x : Derivation .sum ts e) : Derivation .comparison ts e
  | first {xs ys : List Token} {a b : Expr} (op : Cmp) (x : Derivation .sum xs a) (y : Derivation .sum ys b) :
      Derivation .links (xs ++ .cmp op :: ys) (.chain a [(op, b)])
  | next {xs ys : List Token} {a b : Expr} {links : List (Cmp × Expr)} (op : Cmp)
      (x : Derivation .links xs (.chain a links)) (y : Derivation .sum ys b) :
      Derivation .links (xs ++ .cmp op :: ys) (.chain a (links ++ [(op, b)]))
  | sum {xs ys : List Token} {a b : Expr} {op : Arith} (hop : op ∈ [.add, .sub]) (x : Derivation .sum xs a)
      (y : Derivation .product ys b) : Derivation .sum (xs ++ .arith op :: ys) (.arith op a b)
  | ofProduct {ts : List Token} {e : Expr} (x : Derivation .product ts e) : Derivation .sum ts e
  | product {xs ys : List Token} {a b : Expr} {op : Arith} (hop : op ∈ [.mul, .div, .rem]) (x : Derivation .product xs a)
      (y : Derivation .sign ys b) : Derivation .product (xs ++ .arith op :: ys) (.arith op a b)
  | ofSign {ts : List Token} {e : Expr} (x : Derivation .sign ts e) : Derivation .product ts e
  | minus {ts : List Token} {e : Expr} (x : Derivation .sign ts e) : Derivation .sign (.arith .sub :: ts) (.neg e)
  /-- a plus sign is dropped -/
  | plus {ts : List Token} {e : Expr} (x : Derivation .sign ts e) : Derivation .sign (.arith .add :: ts) e
  | ofOperand {ts : List Token} {e : Expr} (x : Derivation .operand ts e) : Derivation .sign ts e
  | literal {t : Token} {v : Json} (h : Literal t v) : Derivation .operand [t] (.lit v)
  | name (s : String) : Derivation .operand [.name s] (.var s)
  | parens {ts : List Token} {e : Expr} (x : Derivation .or ts e) :
      Derivation .operand (.lparen :: (ts ++ [.rparen])) e

variable {k : Nat} {l : Layer} {t : Token} {ts xs ys : List Token} {e a b : Expr}

/-- how many `not`, minus signs and parentheses are open at the same time -/
def Derivation.frames {l : Layer} {ts : List Token} {e : Expr} : Derivation l ts e → Nat
  | .or x y | .and x y | .first _ x y | .next _ x y | .sum _ x y | .product _ x y => max x.frames y.frames
  | .not x | .minus x | .parens x => x.frames + 1
  | .ofAnd x | .ofNot x | .ofComparison x | .chain x | .ofSum x | .ofProduct x | .ofSign x | .plus x
  | .ofOperand x => x.frames
  | .literal _ | .name _ => 0

theorem Derivation.length_pos (D : Derivation l ts e) : 0 < ts.length := by
  induction D with
  | or | and | first | next | sum | product => simp only [List.length_append, List.length_cons]; omega
  | not | minus | plus | literal | name | parens => exact Nat.succ_pos _
  | ofAnd _ ih | ofNot _ ih | ofComparison _ ih | chain _ ih | ofSum _ ih | ofProduct _ ih | ofSign _ ih
  | ofOperand _ ih => exact ih

/-- a run of comparisons has a link -/
theorem Derivation.links_shape (D : Derivation .links ts e) : ∃ a links, links ≠ [] ∧ e = .chain a links := by
  cases D with
  | first => exact ⟨_, _, by simp, rfl⟩
  | next => exact ⟨_, _, by simp, rfl⟩

theorem isSum_iff {op : Arith} : isSum op = true ↔ op ∈ [.add, .sub] := by cases op <;> simp [isSum]

theorem isSum_eq_false_iff {op : Arith} : isSum op = false ↔ op ∈ [.mul, .div, .rem] := by cases op <;> simp [isSum]

/-! ### within some places -/

/-- derived with at most `k` frames open at the same time -/
def Derives (k : Nat) (l : Layer) (ts : List Token) (e : Expr) : Prop := ∃ D : Derivation l ts e, D.frames ≤ k

namespace Derives

theorem or : Derives k .or xs a → Derives k .and ys b → Derives k .or (xs ++ .or :: ys) (.or a b)
  | ⟨x, hx⟩, ⟨y, hy⟩ => ⟨.or x y, Nat.max_le.mpr ⟨hx, hy⟩⟩

theorem ofAnd : Derives k .and ts e → Derives k .or ts e
  | ⟨x, hx⟩ => ⟨.ofAnd x, hx⟩

theorem and : Derives k .and xs a → Derives k .not ys b → Derives k .and (xs ++ .and :: ys) (.and a b)
  | ⟨x, hx⟩, ⟨y, hy⟩ => ⟨.and x y, Nat.max_le.mpr ⟨hx, hy⟩⟩

theorem ofNot : Derives k .not ts e → Derives k .and ts e
  | ⟨x, hx⟩ => ⟨.ofNot x, hx⟩

theorem not : Derives k .not ts e → Derives (k + 1) .not (.not :: ts) (.not e)
  | ⟨x, hx⟩ => ⟨.not x, Nat.succ_le_succ hx⟩

theorem ofComparison : Derives k .comparison ts e → Derives k .not ts e
  | ⟨x, hx⟩ => ⟨.ofComparison x, hx⟩

theorem chain : Derives k .links ts e → Derives k .comparison ts e
  | ⟨x, hx⟩ => ⟨.chain x, hx⟩

theorem ofSum : Derives k .sum ts e → Derives k .comparison ts e
  | ⟨x, hx⟩ => ⟨.ofSum x, hx⟩

theorem first (op : Cmp) :
    Derives k .sum xs a → Derives k .sum ys b → Derives k .links (xs ++ .cmp op :: ys) (.chain a [(op, b)])
  | ⟨x, hx⟩, ⟨y, hy⟩ => ⟨.first op x y, Nat.max_le.mpr ⟨hx, hy⟩⟩

theorem next (op : Cmp) {links : List (Cmp × Expr)} :
    Derives k .links xs (.chain a links) → Derives k .sum ys b →
      Derives k .links (xs ++ .cmp op :: ys) (.chain a (links ++ [(op, b)]))
  | ⟨x, hx⟩, ⟨y, hy⟩ => ⟨.next op x y, Nat.max_le.mpr ⟨hx, hy⟩⟩

theorem sum {op : Arith} (hop : isSum op = true) :
    Derives k .sum xs a → Derives k .product ys b → Derives k .sum (xs ++ .arith op :: ys) (.arith op a b)
  | ⟨x, hx⟩, ⟨y, hy⟩ => ⟨.sum (isSum_iff.mp hop) x y, Nat.max_le.mpr ⟨hx, hy⟩⟩

theorem ofProduct : Derives k .product ts e → Derives k .sum ts e
  | ⟨x, hx⟩ => ⟨.ofProduct x, hx⟩

theorem product {op : Arith} (hop : isSum op = false) :
    Derives k .product xs a → Derives k .sign ys b → Derives k .product (xs ++ .arith op :: ys) (.arith op a b)
  | ⟨x, hx⟩, ⟨y, hy⟩ => ⟨.product (isSum_eq_false_iff.mp hop) x y, Nat.max_le.mpr ⟨hx, hy⟩⟩

theorem ofSign : Derives k .sign ts e → Derives k .product ts e
  | ⟨x, hx⟩ => ⟨.ofSign x, hx⟩

theorem minus : Derives k .sign ts e → Derives (k + 1) .sign (.arith .sub :: ts) (.neg e)
  | ⟨x, hx⟩ => ⟨.minus x, Nat.succ_le_succ hx⟩

theorem plus : Derives k .sign ts e → Derives k .sign (.arith .add :: ts) e
  | ⟨x, hx⟩ => ⟨.plus x, hx⟩

theorem ofOperand : Derives k .operand ts e → Derives k .sign ts e
  | ⟨x, hx⟩ => ⟨.ofOperand x, hx⟩

theorem literal {v : Json} (h : Literal t v) : Derives k .operand [t] (.lit v) := ⟨.literal h, Nat.zero_le k⟩

theorem name (s : String) : Derives k .operand [.name s] (.var s) := ⟨.name s, Nat.zero_le k⟩

theorem parens : Derives k .or ts e → Derives (k + 1) .operand (.lparen :: (ts ++ [.rparen])) e
  | ⟨x, hx⟩ => ⟨.parens x, Nat.succ_le_succ hx⟩

end Derives

theorem literal?_eq_some (h : literal? t = some e) : ∃ v, Literal t v ∧ e = .lit v := by
  cases t with
  | double x =>
    rw [literal?] at h
    split at h
    · next hx => cases h; exact ⟨_, .double hx, rfl⟩
    · cases h
  | int n => cases h; exact ⟨_, .int n, rfl⟩
  | text s => cases h; exact ⟨_, .text s, rfl⟩
  | yes => cases h; exact ⟨_, .yes, rfl⟩
  | no => cases h; exact ⟨_, .no, rfl⟩
  | null => cases h; exact ⟨_, .null, rfl⟩
  | name | and | or | not | arith | cmp | lparen | rparen => cases h

/-! ## What a reader takes is derived -/

section Sound
variable {r : List Token} {answer : Option (Expr × List Token)}

/-- What is answered is derived by the tokens `xs`, which have been taken before, and those taken from `ts`. -/
def Extends (k : Nat) (l : Layer) (xs ts : List Token) (answer : Option (Expr × List Token)) : Prop :=
  ∀ e r, answer = some (e, r) → ∃ ys, ts = ys ++ r ∧ Derives k l (xs ++ ys) e

namespace Extends

theorem none : Extends k l xs ts none := fun _ _ h => nomatch h

theorem stop (h : Derives k l xs e) : Extends k l xs ts (some (e, ts)) := by
  intro e' r heq
  cases heq
  exact ⟨[], rfl, by rwa [List.append_nil]⟩

/-- an operator and its right operand are taken -/
theorem operand (h : Extends k l (xs ++ t :: ys) r answer) : Extends k l xs (t :: (ys ++ r)) answer := by
  intro e r' heq
  obtain ⟨zs, rfl, hder⟩ := h e r' heq
  exact ⟨t :: (ys ++ zs), by simp, by simpa using hder⟩

/-- a sign is taken -/
theorem sign {k' : Nat} {f : Expr → Expr} (h : Extends k l [] ts answer)
    (hf : ∀ xs e, Derives k l xs e → Derives k' l (t :: xs) (f e)) :
    Extends k' l [] (t :: ts) (answer.map fun p => (f p.1, p.2)) := by
  intro e r heq
  obtain ⟨⟨e', r'⟩, hp, he⟩ := Option.map_eq_some_iff.mp heq
  cases he
  obtain ⟨xs, rfl, hder⟩ := h e' r' hp
  exact ⟨t :: xs, rfl, hf xs e' hder⟩

theorem weaken {l' : Layer} (h : Extends k l [] ts answer) (hl : ∀ xs e, Derives k l xs e → Derives k l' xs e) :
    Extends k l' [] ts answer := by
  intro e r heq
  obtain ⟨xs, rfl, hder⟩ := h e r heq
  exact ⟨xs, rfl, hl xs e hder⟩

end Extends

/-- a comparison up to a link: its first operand alone, or a run that has begun -/
def Chained (k : Nat) (xs : List Token) (a : Expr) (links : List (Cmp × Expr)) : Prop :=
  links = [] ∧ Derives k .sum xs a ∨ Derives k .links xs (.chain a links)

namespace Chained
variable {links : List (Cmp × Expr)}

theorem next (h : Chained k xs a links) (op : Cmp) (hy : Derives k .sum ys b) :
    Chained k (xs ++ .cmp op :: ys) a (links ++ [(op, b)]) := by
  rcases h with ⟨rfl, hx⟩ | hx
  · exact .inr (hx.first op hy)
  · exact .inr (hx.next op hy)

theorem operand (h : Chained k xs a []) : Derives k .sum xs a := by
  rcases h with ⟨_, hx⟩ | ⟨D, _⟩
  · exact hx
  · obtain ⟨_, _, hne, heq⟩ := D.links_shape
    cases heq
    exact absurd rfl hne

theorem run (h : Chained k xs a links) (hne : links ≠ []) : Derives k .links xs (.chain a links) := by
  rcases h with ⟨hnil, _⟩ | hx
  · exact absurd hnil hne
  · exact hx

end Chained

mutual
theorem parseOr_extends (fuel room : Nat) (ts : List Token) : Extends room .or [] ts (parseOr fuel room ts) := by
  cases fuel with
  | zero => rw [parseOr]; exact .none
  | succ fuel =>
    rw [parseOr]
    split
    · next a r ha =>
      obtain ⟨xs, rfl, hx⟩ := parseAnd_extends fuel room ts a r ha
      intro e r' heq
      obtain ⟨ys, rfl, hder⟩ := parseOrRest_extends fuel room r hx.ofAnd e r' heq
      exact ⟨xs ++ ys, (List.append_assoc _ _ _).symm, hder⟩
    · exact .none

theorem parseOrRest_extends (fuel room : Nat) {xs : List Token} {a : Expr} (ts : List Token)
    (ha : Derives room .or xs a) : Extends room .or xs ts (parseOrRest fuel room a ts) := by
  cases fuel with
  | zero => rw [parseOrRest]; exact .none
  | succ fuel =>
    unfold parseOrRest
    split
    · contradiction
    · next ts _ =>
      split
      · next b r hb =>
        obtain ⟨ys, rfl, hy⟩ := parseAnd_extends _ _ ts b r hb
        exact (parseOrRest_extends _ _ r (ha.or hy)).operand
      · exact .none
    · exact .stop ha

theorem parseAnd_extends (fuel room : Nat) (ts : List Token) : Extends room .and [] ts (parseAnd fuel room ts) := by
  cases fuel with
  | zero => rw [parseAnd]; exact .none
  | succ fuel =>
    rw [parseAnd]
    split
    · next a r ha =>
      obtain ⟨xs, rfl, hx⟩ := parseNot_extends fuel room ts a r ha
      intro e r' heq
      obtain ⟨ys, rfl, hder⟩ := parseAndRest_extends fuel room r hx.ofNot e r' heq
      exact ⟨xs ++ ys, (List.append_assoc _ _ _).symm, hder⟩
    · exact .none

theorem parseAndRest_extends (fuel room : Nat) {xs : List Token} {a : Expr} (ts : List Token)
    (ha : Derives room .and xs a) : Extends room .and xs ts (parseAndRest fuel room a ts) := by
  cases fuel with
  | zero => rw [parseAndRest]; exact .none
  | succ fuel =>
    unfold parseAndRest
    split
    · contradiction
    · next ts _ =>
      split
      · next b r hb =>
        obtain ⟨ys, rfl, hy⟩ := parseNot_extends _ _ ts b r hb
        exact (parseAndRest_extends _ _ r (ha.and hy)).operand
      · exact .none
    · exact .stop ha

theorem parseNot_extends (fuel room : Nat) (ts : List Token) : Extends room .not [] ts (parseNot fuel room ts) := by
  cases fuel with
  | zero => rw [parseNot]; exact .none
  | succ fuel =>
    unfold parseNot
    split
    · contradiction
    · next ts _ =>
      split
      · exact .none
      · next room => exact (parseNot_extends _ _ ts).sign fun xs e h => h.not
    · exact (parseChain_extends _ _ _).weaken fun xs e h => h.ofComparison

theorem parseChain_extends (fuel room : Nat) (ts : List Token) :
    Extends room .comparison [] ts (parseChain fuel room ts) := by
  cases fuel with
  | zero => rw [parseChain]; exact .none
  | succ fuel =>
    rw [parseChain]
    split
    · next a r ha =>
      obtain ⟨xs, rfl, hx⟩ := parseSum_extends fuel room ts a r ha
      split
      · next r' hlinks =>
        obtain ⟨ys, rfl, hchained⟩ := parseLinks_chained fuel room r (.inl ⟨rfl, hx⟩) hlinks
        exact fun e r heq => by
          cases heq
          exact ⟨xs ++ ys, (List.append_assoc _ _ _).symm, hchained.operand.ofSum⟩
      · next link links r' hlinks =>
        obtain ⟨ys, rfl, hchained⟩ := parseLinks_chained fuel room r (.inl ⟨rfl, hx⟩) hlinks
        exact fun e r heq => by
          cases heq
          exact ⟨xs ++ ys, (List.append_assoc _ _ _).symm, (hchained.run (List.cons_ne_nil _ _)).chain⟩
      · exact .none
    · exact .none

theorem parseLinks_chained (fuel room : Nat) {xs : List Token} {a : Expr} {links : List (Cmp × Expr)} (ts : List Token)
    {more : List (Cmp × Expr)} {r : List Token} (ha : Chained room xs a links)
    (h : parseLinks fuel room ts = some (more, r)) :
    ∃ ys, ts = ys ++ r ∧ Chained room (xs ++ ys) a (links ++ more) := by
  cases fuel with
  | zero => rw [parseLinks] at h; cases h
  | succ fuel =>
    unfold parseLinks at h
    split at h
    · contradiction
    · next op ts _ =>
      split at h
      · next b r' hb =>
        obtain ⟨⟨more', r''⟩, hp, he⟩ := Option.map_eq_some_iff.mp h
        cases he
        obtain ⟨ys, rfl, hy⟩ := parseSum_extends _ _ ts b r' hb
        obtain ⟨zs, rfl, hz⟩ := parseLinks_chained _ _ r' (ha.next op hy) hp
        exact ⟨.cmp op :: (ys ++ zs), by simp, by simpa using hz⟩
      · cases h
    · cases h
      exact ⟨[], rfl, by simpa using ha⟩

theorem parseSum_extends (fuel room : Nat) (ts : List Token) : Extends room .sum [] ts (parseSum fuel room ts) := by
  cases fuel with
  | zero => rw [parseSum]; exact .none
  | succ fuel =>
    rw [parseSum]
    split
    · next a r ha =>
      obtain ⟨xs, rfl, hx⟩ := parseProduct_extends fuel room ts a r ha
      intro e r' heq
      obtain ⟨ys, rfl, hder⟩ := parseSumRest_extends fuel room r hx.ofProduct e r' heq
      exact ⟨xs ++ ys, (List.append_assoc _ _ _).symm, hder⟩
    · exact .none

theorem parseSumRest_extends (fuel room : Nat) {xs : List Token} {a : Expr} (ts : List Token)
    (ha : Derives room .sum xs a) : Extends room .sum xs ts (parseSumRest fuel room a ts) := by
  cases fuel with
  | zero => rw [parseSumRest]; exact .none
  | succ fuel =>
    unfold parseSumRest
    split
    · contradiction
    · next ts _ =>
      split
      · next hop =>
        split
        · next b r hb =>
          obtain ⟨ys, rfl, hy⟩ := parseProduct_extends _ _ ts b r hb
          exact (parseSumRest_extends _ _ r (ha.sum hop hy)).operand
        · exact .none
      · exact .stop ha
    · exact .stop ha

theorem parseProduct_extends (fuel room : Nat) (ts : List Token) :
    Extends room .product [] ts (parseProduct fuel room ts) := by
  cases fuel with
  | zero => rw [parseProduct]; exact .none
  | succ fuel =>
    rw [parseProduct]
    split
    · next a r ha =>
      obtain ⟨xs, rfl, hx⟩ := parseSign_extends fuel room ts a r ha
      intro e r' heq
      obtain ⟨ys, rfl, hder⟩ := parseProductRest_extends fuel room r hx.ofSign e r' heq
      exact ⟨xs ++ ys, (List.append_assoc _ _ _).symm, hder⟩
    · exact .none

theorem parseProductRest_extends (fuel room : Nat) {xs : List Token} {a : Expr} (ts : List Token)
    (ha : Derives room .product xs a) : Extends room .product xs ts (parseProductRest fuel room a ts) := by
  cases fuel with
  | zero => rw [parseProductRest]; exact .none
  | succ fuel =>
    unfold parseProductRest
    split
    · contradiction
    · next ts _ =>
      split
      · exact .stop ha
      · next hop =>
        split
        · next b r hb =>
          obtain ⟨ys, rfl, hy⟩ := parseSign_extends _ _ ts b r hb
          exact (parseProductRest_extends _ _ r (ha.product (Bool.eq_false_iff.mpr hop) hy)).operand
        · exact .none
    · exact .stop ha

theorem parseSign_extends (fuel room : Nat) (ts : List Token) : Extends room .sign [] ts (parseSign fuel room ts) := by
  cases fuel with
  | zero => rw [parseSign]; exact .none
  | succ fuel =>
    unfold parseSign
    split
    · contradiction
    · next ts _ =>
      split
      · exact .none
      · next room => exact (parseSign_extends _ _ ts).sign fun xs e h => h.minus
    · next ts _ =>
      intro e r heq
      obtain ⟨xs, rfl, hx⟩ := parseSign_extends _ _ ts e r heq
      exact ⟨_ :: xs, rfl, hx.plus⟩
    · exact (parseOperand_extends _ _ _).weaken fun xs e h => h.ofOperand

theorem parseOperand_extends (fuel room : Nat) (ts : List Token) :
    Extends room .operand [] ts (parseOperand fuel room ts) := by
  cases fuel with
  | zero => rw [parseOperand]; exact .none
  | succ fuel =>
    unfold parseOperand
    split
    · contradiction
    · exact .none
    · exact .none
    · next s ts _ _ =>
      intro e r heq
      cases heq
      exact ⟨[.name s], rfl, .name s⟩
    · next ts _ =>
      split
      · exact .none
      · next room =>
        split
        · next e r he =>
          obtain ⟨xs, rfl, hx⟩ := parseOr_extends _ _ ts e _ he
          intro e' r' heq
          cases heq
          exact ⟨.lparen :: (xs ++ [Token.rparen]), by simp, Derives.parens hx⟩
        · exact .none
    · next t ts _ _ _ _ =>
      intro e r h
      obtain ⟨e', hlit, he⟩ := Option.map_eq_some_iff.mp h
      cases he
      obtain ⟨v, hv, rfl⟩ := literal?_eq_some hlit
      exact ⟨[t], rfl, .literal hv⟩
end

theorem derives_of_parse? (h : parse? ts = some e) : Derives maxOpen .or ts e := by
  unfold parse? at h
  split at h
  · next e' hor =>
    cases h
    obtain ⟨xs, rfl, hx⟩ := parseOr_extends _ _ ts e [] hor
    simpa using hx
  · cases h

end Sound
end Workflows.Expr
