import Workflows.Proofs.Expr.Grammar

/-!
# The reader of expressions

What the grammar derives is read, whatever follows that cannot go on with it.

* `Stops`                 what follows a phrase and does not go on with it;
* `Consumed`              the reader of a layer takes some tokens in front of whatever stops it;
* `Derivation.consumed`   it takes what is derived, by induction on the derivation.

Main statement: the tree of a list of tokens is the one that is derived, as far as the places suffice
(`parse?_derivation`).
-/

namespace Workflows.Expr

variable {k : Nat} {l : Layer} {t : Token} {ts xs ys : List Token} {e a b : Expr}

/-! ## Layers -/

/-- the place of a layer among the layers, from the operands up -/
def Layer.rank : Layer → Nat
  | .operand => 1
  | .sign => 2
  | .product => 3
  | .sum => 4
  | .links | .comparison => 5
  | .not => 6
  | .and => 7
  | .or => 8

/-- the first layer that goes on with a token; a parenthesis is kept away from all of them, since it turns a name into
a call -/
def strength : Token → Nat
  | .lparen => 1
  | .arith op => if isSum op then 4 else 3
  | .cmp _ => 5
  | .and => 7
  | .or => 8
  | _ => 9

/-- no layer up to `rank` goes on with what follows -/
def Stops (rank : Nat) (rest : List Token) : Prop := ∀ t ∈ rest.head?, rank < strength t

theorem Stops.mono {m n : Nat} {rest : List Token} (h : Stops n rest) (hm : m ≤ n) : Stops m rest :=
  fun t ht => Nat.lt_of_le_of_lt hm (h t ht)

theorem stops_cons {n : Nat} {rest : List Token} : Stops n (t :: rest) ↔ n < strength t := by simp [Stops]

theorem stops_nil (n : Nat) : Stops n [] := fun _ h => nomatch h

/-- the reader of a layer -/
def parseAt : Layer → Nat → Nat → List Token → Option (Expr × List Token)
  | .or => parseOr
  | .and => parseAnd
  | .not => parseNot
  | .comparison | .links => parseChain
  | .sum => parseSum
  | .product => parseProduct
  | .sign => parseSign
  | .operand => parseOperand

/-- a run of comparisons with the links that follow -/
def goOnLinks (fuel room : Nat) (e : Expr) (ts : List Token) : Option (Expr × List Token) :=
  match e with
  | .chain a links => (parseLinks fuel room ts).map fun p => (.chain a (links ++ p.1), p.2)
  | _ => none

/-- how the reader of a layer goes on when it has the tree of a first part -/
def goOn : Layer → Nat → Nat → Expr → List Token → Option (Expr × List Token)
  | .or => parseOrRest
  | .and => parseAndRest
  | .links => goOnLinks
  | .sum => parseSumRest
  | .product => parseProductRest
  | _ => fun _ _ e ts => some (e, ts)

/-- up to where a first part of a layer must stop: the layers that go on by themselves start from the one below -/
def Layer.inner : Layer → Nat
  | .or => 7
  | .and => 6
  | .links => 4
  | .sum => 3
  | .product => 2
  | l => l.rank

/-- A derivation starts with `not` in the layers above the comparisons only, and with a sign in those above the
operands only. -/
theorem Derivation.head (D : Derivation l ts e) :
    ∃ t r, ts = t :: r ∧ (l.rank ≤ 5 → t ≠ .not) ∧ (l.rank ≤ 1 → ∀ op, t ≠ .arith op) := by
  induction D with
  | or | and | next | sum | product =>
    rename_i ih _
    obtain ⟨t, r, rfl, hnot, harith⟩ := ih
    exact ⟨t, _, rfl, hnot, harith⟩
  | first op x y ih =>
    obtain ⟨t, r, rfl, hnot, _⟩ := ih
    exact ⟨t, _, rfl, fun _ => hnot (by decide), by simp [Layer.rank]⟩
  | ofAnd _ ih | ofNot _ ih | ofComparison _ ih | chain _ ih | ofSum _ ih | ofProduct _ ih | ofSign _ ih
  | ofOperand _ ih =>
    obtain ⟨t, r, rfl, hnot, _⟩ := ih
    refine ⟨t, r, rfl, fun h => ?_, by simp [Layer.rank]⟩
    simp_all [Layer.rank]
  | not | minus | plus => exact ⟨_, _, rfl, by simp [Layer.rank], by simp [Layer.rank]⟩
  | literal h => exact ⟨_, _, rfl, by cases h <;> simp, by cases h <;> simp⟩
  | name | parens => exact ⟨_, _, rfl, by simp, by simp⟩

theorem parseLinks_of_stops (fuel room : Nat) {rest : List Token} (hstop : Stops Layer.links.rank rest) :
    parseLinks (fuel + 1) room rest = some ([], rest) := by
  unfold parseLinks
  split
  · contradiction
  · exact absurd (stops_cons.mp hstop) (by simp [Layer.rank, strength])
  · rfl

theorem goOn_of_stops (D : Derivation l ts e) {fuel room : Nat} {rest : List Token} (hfuel : 0 < fuel)
    (hstop : Stops l.rank rest) : goOn l fuel room e rest = some (e, rest) := by
  obtain ⟨fuel, rfl⟩ : ∃ f, fuel = f + 1 := ⟨fuel - 1, by omega⟩
  cases l with
  | or =>
    change parseOrRest (fuel + 1) room e rest = _
    unfold parseOrRest
    split
    · contradiction
    · exact absurd (stops_cons.mp hstop) (by simp [Layer.rank, strength])
    · rfl
  | and =>
    change parseAndRest (fuel + 1) room e rest = _
    unfold parseAndRest
    split
    · contradiction
    · exact absurd (stops_cons.mp hstop) (by simp [Layer.rank, strength])
    · rfl
  | links =>
    obtain ⟨a, links, _, rfl⟩ := D.links_shape
    change (parseLinks (fuel + 1) room rest).map _ = _
    rw [parseLinks_of_stops fuel room hstop, Option.map_some, List.append_nil]
  | sum =>
    change parseSumRest (fuel + 1) room e rest = _
    unfold parseSumRest
    split
    · contradiction
    · next op ts _ =>
      have hop := stops_cons.mp hstop
      cases op <;> simp_all [Layer.rank, strength, isSum]
    · rfl
  | product =>
    change parseProductRest (fuel + 1) room e rest = _
    unfold parseProductRest
    split
    · contradiction
    · next op ts _ =>
      have hop := stops_cons.mp hstop
      cases op <;> simp_all [Layer.rank, strength, isSum]
    · rfl
  | not | comparison | sign | operand => rfl

/-! ## Phrases -/

/-- The reader of a layer takes these tokens in front of whatever stops it, and then goes on with their tree. -/
def Consumed (k : Nat) (l : Layer) (ts : List Token) (e : Expr) : Prop :=
  ∀ fuel room rest, k ≤ room → 8 * ts.length + l.rank ≤ fuel + 8 → Stops l.inner rest →
    ∃ fuel', fuel ≤ fuel' + ts.length ∧ parseAt l fuel room (ts ++ rest) = goOn l fuel' room e rest

namespace Consumed
variable {l' : Layer}

theorem all (h : Consumed k l ts e) (D : Derivation l ts e) (fuel room : Nat) (rest : List Token) (hk : k ≤ room)
    (hfuel : 8 * ts.length + l.rank ≤ fuel + 8) (hstop : Stops l.rank rest) :
    parseAt l fuel room (ts ++ rest) = some (e, rest) := by
  have hinner : l.inner ≤ l.rank := by cases l <;> decide
  obtain ⟨fuel', hle, hparse⟩ := h fuel room rest hk hfuel (hstop.mono hinner)
  rw [hparse]
  have hpos := D.length_pos
  by_cases hzero : 0 < fuel'
  · exact goOn_of_stops D hzero hstop
  · -- only the layers that do not go on by themselves can have used up the fuel
    cases l with
    | sign | operand | not | comparison => rfl
    | _ => simp only [Layer.rank] at hfuel; omega

/-- a layer over the next one: the first part alone -/
theorem lift (D : Derivation l' ts e) (h : Consumed k l' ts e) (hrank : l'.rank < l.rank) (hinner : l'.rank ≤ l.inner)
    (hstep : ∀ fuel room rest, Stops l.inner rest → parseAt l' (fuel + 1) room (ts ++ rest) = some (e, rest) →
      parseAt l (fuel + 2) room (ts ++ rest) = goOn l (fuel + 1) room e rest) : Consumed k l ts e := by
  intro fuel room rest hk hfuel hstop
  have hpos := D.length_pos
  have hbase : 0 < l'.rank := by cases l' <;> decide
  obtain ⟨fuel, rfl⟩ : ∃ f, fuel = f + 2 := ⟨fuel - 2, by omega⟩
  exact ⟨fuel + 1, by omega, hstep fuel room rest hstop (h.all D _ _ _ hk (by omega) (hstop.mono hinner))⟩

/-- a sign in front of a phrase of its own layer, which goes on with nothing -/
theorem signed {f : Expr → Expr} {j : Nat} (D : Derivation l ts e) (h : Consumed k l ts e)
    (hgo : ∀ fuel room e rest, goOn l fuel room e rest = some (e, rest)) (hinner : l.inner = l.rank)
    (hstep : ∀ fuel room ts r, parseAt l fuel room ts = some (e, r) →
      parseAt l (fuel + 1) (room + j) (t :: ts) = some (f e, r)) : Consumed (k + j) l (t :: ts) (f e) := by
  intro fuel room rest hk hfuel hstop
  rw [List.length_cons] at hfuel ⊢
  have hpos := D.length_pos
  obtain ⟨fuel, rfl⟩ : ∃ f, fuel = f + 1 := ⟨fuel - 1, by omega⟩
  obtain ⟨room, rfl⟩ : ∃ r, room = r + j := ⟨room - j, by omega⟩
  refine ⟨fuel, by omega, ?_⟩
  rw [hgo]
  exact hstep fuel room _ _ (h.all D _ _ _ (by omega) (by omega) (hinner ▸ hstop))

/-- a layer that goes on with an operator and a phrase of another layer -/
theorem operator {m n : Nat} {f : Expr → Expr} (x : Derivation l xs a) (y : Derivation l' ys b) (hx : Consumed m l xs a)
    (hy : Consumed n l' ys b) (hrank : l'.rank ≤ 8) (hinner : l'.rank ≤ l.inner) (ht : l.inner < strength t)
    (hstep : ∀ fuel room ts r, parseAt l' fuel room ts = some (b, r) →
      goOn l (fuel + 1) room a (t :: ts) = goOn l fuel room (f b) r) : Consumed (max m n) l (xs ++ t :: ys) (f b) := by
  intro fuel room rest hk hfuel hstop
  rw [List.length_append, List.length_cons] at hfuel ⊢
  obtain ⟨fuel', hle, hparse⟩ := hx fuel room (t :: (ys ++ rest)) (by omega) (by omega) (stops_cons.mpr ht)
  have hposx := x.length_pos
  have hposy := y.length_pos
  obtain ⟨fuel', rfl⟩ : ∃ f, fuel' = f + 1 := ⟨fuel' - 1, by omega⟩
  refine ⟨fuel', by omega, ?_⟩
  rw [List.append_assoc, List.cons_append, hparse]
  exact hstep fuel' room _ _ (hy.all y _ _ _ (by omega) (by omega) (hstop.mono hinner))

/-- the first link: the comparison itself reads the first operand, and the loop over the links the second one -/
theorem first {m n : Nat} (op : Cmp) (x : Derivation .sum xs a) (y : Derivation .sum ys b) (hx : Consumed m .sum xs a)
    (hy : Consumed n .sum ys b) : Consumed (max m n) .links (xs ++ .cmp op :: ys) (.chain a [(op, b)]) := by
  intro fuel room rest hk hfuel hstop
  rw [List.length_append, List.length_cons] at hfuel ⊢
  have hposx := x.length_pos
  have hposy := y.length_pos
  have hrank : Layer.links.rank = 5 ∧ Layer.sum.rank = 4 := ⟨rfl, rfl⟩
  obtain ⟨fuel, rfl⟩ : ∃ f, fuel = f + 2 := ⟨fuel - 2, by omega⟩
  have hfirst := hx.all x (fuel + 1) room (.cmp op :: (ys ++ rest)) (by omega) (by omega)
    (stops_cons.mpr (by simp [Layer.rank, strength]))
  have hsecond := hy.all y fuel room rest (by omega) (by omega) hstop
  simp only [parseAt] at hfirst hsecond
  refine ⟨fuel, by omega, ?_⟩
  rw [List.append_assoc, List.cons_append]
  simp only [parseAt, goOn, goOnLinks]
  rw [parseChain, hfirst]
  simp only [parseLinks, hsecond]
  cases parseLinks fuel room rest with
  | none => rfl
  | some p => rfl

theorem literal {v : Json} (h : Literal t v) : Consumed k .operand [t] (.lit v) := by
  intro fuel room rest _ hfuel _
  obtain ⟨fuel, rfl⟩ : ∃ f, fuel = f + 1 := ⟨fuel - 1, by simp [Layer.rank] at hfuel; omega⟩
  refine ⟨fuel, Nat.le_refl _, ?_⟩
  cases h <;> simp [parseAt, goOn, parseOperand, literal?, *]

/-- a name, behind which no parenthesis makes it a call -/
theorem name (s : String) : Consumed k .operand [.name s] (.var s) := by
  intro fuel room rest _ hfuel hstop
  obtain ⟨fuel, rfl⟩ : ∃ f, fuel = f + 1 := ⟨fuel - 1, by simp [Layer.rank] at hfuel; omega⟩
  refine ⟨fuel, Nat.le_refl _, ?_⟩
  simp only [parseAt, goOn, List.cons_append, List.nil_append]
  rw [parseOperand]
  intro r heq
  exact absurd (stops_cons.mp (heq ▸ hstop)) (by simp [Layer.inner, Layer.rank, strength])

theorem parens (x : Derivation .or ts e) (h : Consumed k .or ts e) :
    Consumed (k + 1) .operand (.lparen :: (ts ++ [.rparen])) e := by
  intro fuel room rest hk hfuel _
  rw [List.length_cons, List.length_append, List.length_singleton] at hfuel ⊢
  obtain ⟨fuel, rfl⟩ : ∃ f, fuel = f + 1 := ⟨fuel - 1, by omega⟩
  obtain ⟨room, rfl⟩ : ∃ r, room = r + 1 := ⟨room - 1, by omega⟩
  have hrank : Layer.operand.rank = 1 ∧ Layer.or.rank = 8 := ⟨rfl, rfl⟩
  have hinside := h.all x fuel room (.rparen :: rest) (by omega) (by omega) (stops_cons.mpr (by decide))
  simp only [parseAt] at hinside
  refine ⟨fuel, by omega, ?_⟩
  rw [List.cons_append, List.append_assoc, List.singleton_append]
  simp only [parseAt, goOn, parseOperand, hinside]

end Consumed

theorem Derivation.consumed (D : Derivation l ts e) : Consumed D.frames l ts e := by
  induction D with
  | or x y ihx ihy =>
    refine .operator (f := .or _) x y ihx ihy (by decide) (by decide) (by decide) fun fuel room ts r h => ?_
    simp only [parseAt] at h
    simp only [goOn, parseOrRest, h]
  | ofAnd x ih =>
    refine .lift x ih (by decide) (by decide) fun fuel room rest _ h => ?_
    simp only [parseAt] at h ⊢
    rw [parseOr, h]
    rfl
  | and x y ihx ihy =>
    refine .operator (f := .and _) x y ihx ihy (by decide) (by decide) (by decide) fun fuel room ts r h => ?_
    simp only [parseAt] at h
    simp only [goOn, parseAndRest, h]
  | ofNot x ih =>
    refine .lift x ih (by decide) (by decide) fun fuel room rest _ h => ?_
    simp only [parseAt] at h ⊢
    rw [parseAnd, h]
    rfl
  | not x ih =>
    refine .signed (f := .not) (j := 1) x ih (fun _ _ _ _ => rfl) rfl fun fuel room ts r h => ?_
    simp only [parseAt] at h ⊢
    simp only [parseNot, h, Option.map_some]
  | ofComparison x ih =>
    refine .lift x ih (by decide) (by decide) fun fuel room rest _ h => ?_
    obtain ⟨t, ts, rfl, hnot, _⟩ := x.head
    simp only [parseAt] at h ⊢
    rw [List.cons_append] at h ⊢
    rw [parseNot, h]
    · rfl
    · intro ts' heq
      cases heq
      exact hnot (by decide) rfl
  | chain x ih =>
    intro fuel room rest hk hfuel hstop
    exact ⟨fuel, by omega, ih.all x fuel room rest hk hfuel hstop⟩
  | ofSum x ih =>
    refine .lift x ih (by decide) (by decide) fun fuel room rest hstop h => ?_
    simp only [parseAt] at h ⊢
    rw [parseChain, h]
    simp only [parseLinks_of_stops fuel room hstop]
    rfl
  | first op x y ihx ihy => exact .first op x y ihx ihy
  | next op x y ihx ihy =>
    refine .operator (f := fun b => .chain _ (_ ++ [(op, b)])) x y ihx ihy (by decide) (by decide)
      (by simp [Layer.inner, strength]) fun fuel room ts r h => ?_
    simp only [parseAt] at h
    simp only [goOn, goOnLinks, parseLinks, h, Option.map_map]
    congr 1
    funext p
    simp
  | sum hop x y ihx ihy =>
    have hsum := isSum_iff.mpr hop
    refine .operator (f := .arith _ _) x y ihx ihy (by decide) (by decide) (by simp [Layer.inner, strength, hsum])
      fun fuel room ts r h => ?_
    simp only [parseAt] at h
    simp only [goOn, parseSumRest, h, hsum, if_true]
  | ofProduct x ih =>
    refine .lift x ih (by decide) (by decide) fun fuel room rest _ h => ?_
    simp only [parseAt] at h ⊢
    rw [parseSum, h]
    rfl
  | product hop x y ihx ihy =>
    have hsum := isSum_eq_false_iff.mpr hop
    refine .operator (f := .arith _ _) x y ihx ihy (by decide) (by decide) (by simp [Layer.inner, strength, hsum])
      fun fuel room ts r h => ?_
    simp only [parseAt] at h
    simp only [goOn, parseProductRest, h, hsum, Bool.false_eq_true, if_false]
  | ofSign x ih =>
    refine .lift x ih (by decide) (by decide) fun fuel room rest _ h => ?_
    simp only [parseAt] at h ⊢
    rw [parseProduct, h]
    rfl
  | minus x ih =>
    refine .signed (f := .neg) (j := 1) x ih (fun _ _ _ _ => rfl) rfl fun fuel room ts r h => ?_
    simp only [parseAt] at h ⊢
    simp only [parseSign, h, Option.map_some]
  | plus x ih =>
    refine .signed (f := id) (j := 0) x ih (fun _ _ _ _ => rfl) rfl fun fuel room ts r h => ?_
    simp only [parseAt] at h ⊢
    simp only [parseSign, h, Nat.add_zero, id]
  | ofOperand x ih =>
    refine .lift x ih (by decide) (by decide) fun fuel room rest _ h => ?_
    obtain ⟨t, ts, rfl, _, harith⟩ := x.head
    simp only [parseAt] at h ⊢
    rw [List.cons_append] at h ⊢
    rw [parseSign, h]
    · rfl
    · intro ts' heq
      cases heq
      exact harith (by decide) _ rfl
    · intro ts' heq
      cases heq
      exact harith (by decide) _ rfl
  | literal h => exact .literal h
  | name s => exact .name s
  | parens x ih => exact .parens x ih

/-! ## Whole lists of tokens -/

/-- What is derived within the places is read. -/
theorem parse?_of_derivation (D : Derivation .or ts e) (h : D.frames ≤ maxOpen) : parse? ts = some e := by
  have hfuel : 8 * ts.length + Layer.or.rank ≤ fuelFor ts + 8 := by
    rw [fuelFor, Layer.rank]
    omega
  have hparse := D.consumed.all D _ _ _ h hfuel (stops_nil _)
  rw [List.append_nil] at hparse
  simp only [parseAt] at hparse
  simp only [parse?, hparse]

/-- A list of tokens stands for one tree at most, however many places there are. -/
theorem Derivation.unique (D : Derivation .or ts a) (E : Derivation .or ts b) : a = b := by
  have hfuel : 8 * ts.length + Layer.or.rank ≤ 8 * ts.length + Layer.or.rank + 8 := by omega
  have hD := D.consumed.all D _ _ _ (Nat.le_max_left D.frames E.frames) hfuel (stops_nil _)
  have hE := E.consumed.all E _ _ _ (Nat.le_max_right D.frames E.frames) hfuel (stops_nil _)
  rw [hD] at hE
  cases hE
  rfl

/-- **The reader accepts exactly what the grammar derives without more frames open at a time than there are places, and
its tree is the only one that the grammar has for the tokens.** -/
theorem parse?_derivation (ts : List Token) (e : Expr) :
    (parse? ts = some e ↔ ∃ D : Derivation .or ts e, D.frames ≤ maxOpen) ∧
      ∀ e', Derivation .or ts e → Derivation .or ts e' → e' = e :=
  ⟨⟨derives_of_parse?, fun ⟨D, h⟩ => parse?_of_derivation D h⟩, fun _ D E => E.unique D⟩

-- `7 - 2 - +1`
example : parse? [.int 7, .arith .sub, .int 2, .arith .sub, .arith .add, .int 1] =
    some (.arith .sub (.arith .sub (.lit (.int 7)) (.lit (.int 2))) (.lit (.int 1))) := by cbv

end Workflows.Expr
