import Mathlib.Data.String.Basic
import Workflows.Json.Order
import Workflows.Proofs.Json.Numbers

/-!
# The order of sort keys

Two numbers are compared by their values and any other two keys by their texts.  The texts of numbers are not in the
order of their values, so that a text can stand between two numbers in the wrong order.

* `Facet`          what is compared of a key: the value of a number, and the text
* `TransitiveOn`   an order without cycles among some items
* `Settled`        numbers with a text between them are in the order of their own texts

Main statement: the order of two keys is the reverse of the order of the same keys the other way round, and it is
transitive among keys exactly if these are settled (`keyOrder_transitive_iff`).
-/

namespace Workflows.Json

/-! ## Orders -/

section
variable {α β : Type} {order : α → α → Ordering} {as : List α}

/-- Among some items: where `a` is not after `b`, and `b` not after `c`, there `a` is not after `c`. -/
def TransitiveOn (order : α → α → Ordering) (as : List α) : Prop :=
  ∀ a ∈ as, ∀ b ∈ as, ∀ c ∈ as, order a b ≠ .gt → order b c ≠ .gt → order a c ≠ .gt

/-- the reverse of an order -/
theorem transitiveOn_swap (h : ∀ a b, order b a = (order a b).swap) :
    TransitiveOn (fun a b => (order a b).swap) as ↔ TransitiveOn order as := by
  simp only [TransitiveOn, ← h]
  exact ⟨fun hall a ha b hb c hc hab hbc => hall c hc b hb a ha hbc hab,
    fun hall a ha b hb c hc hab hbc => hall c hc b hb a ha hbc hab⟩

/-- an order by a property of items -/
theorem transitiveOn_map {order' : β → β → Ordering} {f : α → β}
    (h : ∀ a ∈ as, ∀ b ∈ as, order a b = order' (f a) (f b)) :
    TransitiveOn order as ↔ TransitiveOn order' (as.map f) := by
  simp only [TransitiveOn, List.forall_mem_map]
  refine ⟨fun hall a ha b hb c hc => ?_, fun hall a ha b hb c hc => ?_⟩
  · rw [← h a ha b hb, ← h b hb c hc, ← h a ha c hc]
    exact hall a ha b hb c hc
  · rw [h a ha b hb, h b hb c hc, h a ha c hc]
    exact hall a ha b hb c hc

/-- an order in which what is missing comes last -/
def missingLast (order : α → α → Ordering) : Option α → Option α → Ordering
  | none, none => .eq
  | none, some _ => .gt
  | some _, none => .lt
  | some a, some b => order a b

theorem missingLast_swap (h : ∀ a b, order b a = (order a b).swap) (a b : Option α) :
    missingLast order b a = (missingLast order a b).swap := by
  cases a <;> cases b
  case some.some a b => exact h a b
  all_goals rfl

theorem transitiveOn_missingLast {ks : List (Option α)} :
    TransitiveOn (missingLast order) ks ↔ TransitiveOn order ks.reduceOption := by
  simp only [TransitiveOn, List.reduceOption_mem_iff]
  refine ⟨fun hall a ha b hb c hc => hall _ ha _ hb _ hc, fun hall k hk l hl m hm hkl hlm => ?_⟩
  cases k with
  | none =>
    -- what is not before a missing key is missing as well
    cases l with
    | none => exact hlm
    | some b => exact absurd rfl hkl
  | some a =>
    cases m with
    | none => exact nofun
    | some c =>
      cases l with
      | none => exact absurd rfl hlm
      | some b => exact hall a hk b hl c hm hkl hlm

end

/-! ## Values -/

/-- What is compared of a key: the nearest double of a number, in units of the smallest positive one, and the text. -/
structure Facet where
  units : Option Int
  text : String

namespace Facet
variable {k l : Facet} {u w : Int} {ks : List Facet}

def order (k l : Facet) : Ordering :=
  match k.units, l.units with
  | some u, some w => compare u w
  | _, _ => compare k.text l.text

theorem order_numbers (hk : k.units = some u) (hl : l.units = some w) : k.order l = compare u w := by
  rw [order, hk, hl]

theorem order_texts (h : k.units = none ∨ l.units = none) : k.order l = compare k.text l.text := by
  rcases h with h | h
  · rw [order, h]
  · rw [order, h]
    cases k.units <;> rfl

theorem order_swap (k l : Facet) : l.order k = (k.order l).swap := by
  cases hk : k.units with
  | none => rw [order_texts (.inl hk), order_texts (.inr hk), ← Std.OrientedOrd.eq_swap]
  | some u =>
    cases hl : l.units with
    | none => rw [order_texts (.inl hl), order_texts (.inr hl), ← Std.OrientedOrd.eq_swap]
    | some w => rw [order_numbers hk hl, order_numbers hl hk, ← Std.OrientedOrd.eq_swap]

theorem numbers_le (hk : k.units = some u) (hl : l.units = some w) : k.order l ≠ .gt ↔ u ≤ w := by
  rw [order_numbers hk hl, compare_le_iff_le]

theorem texts_le (h : k.units = none ∨ l.units = none) : k.order l ≠ .gt ↔ k.text ≤ l.text := by
  rw [order_texts h, compare_le_iff_le]

/-- Two numbers with a text between theirs are in the order of their texts. -/
def Settled (ks : List Facet) : Prop :=
  ∀ p ∈ ks, ∀ q ∈ ks, ∀ t ∈ ks, ∀ u w, p.units = some u → q.units = some w → t.units = none →
    p.text ≤ t.text → t.text ≤ q.text → compare u w = compare p.text q.text

/-- Only two numbers and a text can be in a cycle; the text is between the texts of the numbers then. -/
theorem Settled.transitive (h : Settled ks) : TransitiveOn order ks := by
  intro a ha b hb c hc hab hbc
  cases hua : a.units with
  | none =>
    rw [texts_le (.inl hua)] at hab ⊢
    cases hub : b.units with
    | none => exact hab.trans ((texts_le (.inl hub)).mp hbc)
    | some v =>
      cases huc : c.units with
      | none => exact hab.trans ((texts_le (.inr huc)).mp hbc)
      | some w =>
        by_contra hca
        have hlt : c.text < a.text := not_le.mp hca
        have horder := h c hc b hb a ha w v huc hub hua hlt.le hab
        rw [compare_lt_iff_lt.mpr (hlt.trans_le hab), compare_lt_iff_lt] at horder
        exact not_le.mpr horder ((numbers_le hub huc).mp hbc)
  | some u =>
    cases hub : b.units with
    | none =>
      rw [texts_le (.inr hub)] at hab
      rw [texts_le (.inl hub)] at hbc
      cases huc : c.units with
      | none => exact (texts_le (.inr huc)).mpr (hab.trans hbc)
      | some w =>
        rw [order_numbers hua huc, h a ha c hc b hb u w hua huc hub hab hbc, compare_le_iff_le]
        exact hab.trans hbc
    | some v =>
      rw [numbers_le hua hub] at hab
      cases huc : c.units with
      | none =>
        rw [texts_le (.inr huc)] at hbc ⊢
        by_contra hca
        have hlt : c.text < a.text := not_le.mp hca
        have horder := h b hb a ha c hc v u hub hua huc hbc hlt.le
        rw [compare_lt_iff_lt.mpr (hbc.trans_lt hlt), compare_lt_iff_lt] at horder
        exact not_le.mpr horder hab
      | some w =>
        rw [numbers_le hub huc] at hbc
        exact (numbers_le hua huc).mpr (hab.trans hbc)

theorem settled_of_transitive (h : TransitiveOn order ks) : Settled ks := by
  intro p hp q hq t ht u w hu hw hnone hpt htq
  have huw : u ≤ w :=
    (numbers_le hu hw).mp (h p hp t ht q hq ((texts_le (.inr hnone)).mpr hpt) ((texts_le (.inl hnone)).mpr htq))
  -- were the greater text the smaller number, all three texts were the same
  have hback (hwu : w ≤ u) : q.text ≤ p.text := by
    have hqp := (numbers_le hw hu).mpr hwu
    have hqt := h q hq p hp t ht hqp ((texts_le (.inr hnone)).mpr hpt)
    have htp := h t ht q hq p hp ((texts_le (.inl hnone)).mpr htq) hqp
    exact ((texts_le (.inr hnone)).mp hqt).trans ((texts_le (.inl hnone)).mp htp)
  rcases lt_or_eq_of_le (hpt.trans htq) with hlt | heq
  · rw [compare_lt_iff_lt.mpr hlt, compare_lt_iff_lt]
    exact lt_of_not_ge fun hwu => not_le.mpr hlt (hback hwu)
  · have hwu : w ≤ u := (numbers_le hw hu).mp (h q hq t ht p hp ((texts_le (.inr hnone)).mpr (heq ▸ hpt))
      ((texts_le (.inl hnone)).mpr (heq ▸ htq)))
    rw [heq, compare_eq_iff_eq.mpr rfl, compare_eq_iff_eq]
    exact le_antisymm huw hwu

end Facet

variable {a b v : Json} {keys : List (Option Json)}

def facet (v : Json) : Facet := ⟨v.units?, v.text⟩

theorem valueOrder_eq (ha : a.InRange) (hb : b.InRange) : valueOrder a b = a.facet.order b.facet := by
  cases hx : a.double? with
  | none =>
    rw [Facet.order_texts (.inl (units?_of_no_double hx)), valueOrder, hx]
    rfl
  | some x =>
    cases hy : b.double? with
    | none =>
      rw [Facet.order_texts (.inr (units?_of_no_double hy)), valueOrder, hx, hy]
      rfl
    | some y =>
      obtain ⟨u, hu⟩ := ha.units?_isSome hx
      obtain ⟨w, hw⟩ := hb.units?_isSome hy
      rw [Facet.order_numbers hu hw, valueOrder, hx, hy]
      rw [units?_of_double? hx] at hu
      rw [units?_of_double? hy] at hw
      simp only [Double.lt_iff_units hu hw, Double.lt_iff_units hw hu]
      rcases lt_trichotomy u w with hlt | heq | hgt
      · rw [if_pos hlt, compare_lt_iff_lt.mpr hlt]
      · rw [if_neg (by omega), if_neg (by omega), compare_eq_iff_eq.mpr heq]
      · rw [if_neg (by omega), if_pos hgt, compare_gt_iff_gt.mpr hgt]

/-! ## Keys -/

/-- what is compared of a key that is not missing -/
def facet? (k : Option Json) : Option Facet := (present? k).map facet

/-- an order, or its reverse -/
def directed (descending : Bool) (k l : Facet) : Ordering := if descending then (k.order l).swap else k.order l

theorem directed_swap (descending : Bool) (k l : Facet) : directed descending l k = (directed descending k l).swap := by
  cases descending
  · exact Facet.order_swap k l
  · exact congrArg Ordering.swap (Facet.order_swap k l)

theorem transitiveOn_directed (descending : Bool) (ks : List Facet) :
    TransitiveOn (directed descending) ks ↔ TransitiveOn Facet.order ks := by
  cases descending
  · exact Iff.rfl
  · exact transitiveOn_swap Facet.order_swap

theorem present?_eq_some {k : Option Json} (h : present? k = some v) : k = some v := by
  unfold present? at h
  split at h
  · cases h
  · exact h

theorem keyOrder_eq (descending : Bool) {k l : Option Json} (hk : ∀ v, k = some v → v.InRange)
    (hl : ∀ v, l = some v → v.InRange) :
    keyOrder descending k l = missingLast (directed descending) (facet? k) (facet? l) := by
  rw [keyOrder, facet?, facet?]
  cases ha : present? k with
  | none => cases present? l <;> rfl
  | some a =>
    cases hb : present? l with
    | none => rfl
    | some b =>
      have hvalues := valueOrder_eq (hk a (present?_eq_some ha)) (hl b (present?_eq_some hb))
      simp only [hvalues]
      rfl

/-- **Keys are in a consistent order exactly if no text is between two numbers that are out of the order of their
texts.** -/
theorem keyOrder_transitive_iff (hkeys : ∀ v, some v ∈ keys → v.InRange) (descending : Bool) :
    (∀ k ∈ keys, ∀ l ∈ keys, keyOrder descending l k = (keyOrder descending k l).swap) ∧
      (TransitiveOn (keyOrder descending) keys ↔ Facet.Settled (keys.filterMap facet?)) := by
  have heq : ∀ k ∈ keys, ∀ l ∈ keys,
      keyOrder descending k l = missingLast (directed descending) (facet? k) (facet? l) := fun k hk l hl =>
    keyOrder_eq descending (fun v hv => hkeys v (hv ▸ hk)) fun v hv => hkeys v (hv ▸ hl)
  constructor
  · intro k hk l hl
    rw [heq k hk l hl, heq l hl k hk]
    exact missingLast_swap (directed_swap descending) _ _
  · rw [transitiveOn_map heq, transitiveOn_missingLast, transitiveOn_directed, List.reduceOption, List.filterMap_map]
    exact ⟨Facet.settled_of_transitive, Facet.Settled.transitive⟩

namespace Sample

/-- numbers in an order that their texts do not have, and a text behind both -/
def sortKeys : List (Option Json) := [some (.int 9), none, some (.str "total"), some (.int 100), some .null]

end Sample

theorem keyOrder_transitive_total : TransitiveOn (keyOrder true) Sample.sortKeys := by
  have hrange : ∀ v, some v ∈ Sample.sortKeys → v.InRange := by
    intro v hv
    simp only [Sample.sortKeys, List.mem_cons, Option.some.injEq, List.not_mem_nil, or_false, reduceCtorEq,
      false_or] at hv
    rcases hv with rfl | rfl | rfl | rfl
    · exact ⟨by decide, by decide⟩
    · trivial
    · exact ⟨by decide, by decide⟩
    · trivial
  have hbehind : ∀ t ∈ Sample.sortKeys.filterMap facet?, t.units = none →
      ∀ q ∈ Sample.sortKeys.filterMap facet?, q.units ≠ none → ¬t.text ≤ q.text := by decide +kernel
  refine (keyOrder_transitive_iff hrange true).2.mpr fun p _ q hq t ht u w _ hw hnone _ htq => ?_
  exact absurd htq (hbehind t ht hnone q hq (hw ▸ Option.some_ne_none w))

/-- a cycle: the text `"5"` is between the texts `"10"` and `"9"` -/
theorem keyOrder_cycle :
    keyOrder false (some (.int 9)) (some (.int 10)) = .lt ∧ keyOrder false (some (.int 10)) (some (.str "5")) = .lt ∧
      keyOrder false (some (.str "5")) (some (.int 9)) = .lt := by
  decide +kernel

end Workflows.Json
