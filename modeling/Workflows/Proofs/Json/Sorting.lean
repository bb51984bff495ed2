import Workflows.Proofs.Insertion
import Workflows.Proofs.Json.SortKeys

/-!
# Sorted lists of values

A list is sorted by moving each item in turn past all items that it is before.  Keys of one kind, all numbers or none,
have no cycles in their order, so that the result does not depend on how a list is sorted.

* `Sorts`      an order by which some items can be sorted
* `Arranged`   a list in the order of its keys: items without a key are last, and items that are level keep their order
* `OneKind`    keys that are all numbers, or none of them a number

Main statements: a list with keys of one kind is arranged (`sortBy_arranged`), and a list in the order of its keys stays
as it is (`sortItems_of_sorted`).
-/

namespace Workflows.Json

/-! ## Items -/

section
variable {α : Type} {order : α → α → Ordering} {isBefore : α → α → Bool} {p : α → Bool} {as acc : List α} {a b c : α}

/-- An order by which some items can be sorted. -/
structure Sorts (order : α → α → Ordering) (as : List α) : Prop where
  swap : ∀ a ∈ as, ∀ b ∈ as, order b a = (order a b).swap
  transitive : TransitiveOn order as

/-- an item comes before another one in an order -/
def comesBefore (order : α → α → Ordering) (a b : α) : Bool := order a b == .lt

theorem comesBefore_iff : comesBefore order a b = true ↔ order a b = .lt := beq_iff_eq

theorem Sorts.not_gt (h : Sorts order as) (ha : a ∈ as) (hb : b ∈ as) (hab : comesBefore order a b = false) :
    order b a ≠ .gt := by
  intro hba
  have hlt : order a b = .lt := by rw [h.swap b hb a ha, hba]; rfl
  rw [← Bool.not_eq_true, comesBefore_iff] at hab
  exact hab hlt

/-- an item that another one comes before is not level with what is level with that one -/
theorem Sorts.not_level (h : Sorts order as) (hc : c ∈ as) (ha : a ∈ as) (hb : b ∈ as)
    (hab : comesBefore order a b = true) (hca : order c a = .eq) : order c b ≠ .eq := by
  intro hcb
  have hba : order b a = .gt := by rw [h.swap a ha b hb, comesBefore_iff.mp hab]; rfl
  have hbc : order b c = .eq := by rw [h.swap c hc b hb, hcb]; rfl
  have hnot := h.transitive b hb c hc a ha (hbc ▸ nofun) (hca ▸ nofun)
  exact hnot hba

/-! ### one item put in its place -/

theorem insertFromEnd_eq (isBefore : α → α → Bool) (a : α) (bs : List α) :
    insertFromEnd isBefore a bs = bs.orderedInsert (fun a b => ¬isBefore a b = true) a := by
  induction bs with
  | nil => rfl
  | cons b bs ih =>
    rw [insertFromEnd, List.orderedInsert_cons, ih]
    split
    · rfl
    · rfl

theorem mem_insertFromEnd : c ∈ insertFromEnd isBefore a as ↔ c = a ∨ c ∈ as := by
  rw [insertFromEnd_eq, List.mem_orderedInsert]

/-- The list is sorted from its end. -/
theorem insertFromEnd_sorted (h : Sorts order as) (ha : a ∈ as) (hsub : ∀ b ∈ acc, b ∈ as)
    (hacc : acc.Pairwise fun c b => order b c ≠ .gt) :
    (insertFromEnd (comesBefore order) a acc).Pairwise fun c b => order b c ≠ .gt := by
  induction acc with
  | nil => exact List.pairwise_singleton _ _
  | cons b bs ih =>
    obtain ⟨hb, hbs⟩ := List.forall_mem_cons.mp hsub
    obtain ⟨hhead, hrest⟩ := List.pairwise_cons.mp hacc
    rw [insertFromEnd]
    split
    · next hab =>
      refine List.pairwise_cons.mpr ⟨fun c hc => ?_, ih hbs hrest⟩
      rcases mem_insertFromEnd.mp hc with rfl | hc
      · rw [comesBefore_iff.mp hab]
        exact nofun
      · exact hhead c hc
    · next hab =>
      have hba := h.not_gt ha hb (Bool.eq_false_iff.mpr hab)
      refine List.pairwise_cons.mpr ⟨fun c hc => ?_, hacc⟩
      rcases List.mem_cons.mp hc with rfl | hc
      · exact hba
      · exact h.transitive c (hbs c hc) b hb a ha (hhead c hc) hba

/-- An item is put in front of all that it shares a property with, if it comes before none of these. -/
theorem insertFromEnd_filter (hp : ∀ b ∈ acc, isBefore a b = true → p a = true → p b = false) :
    (insertFromEnd isBefore a acc).filter p = (a :: acc).filter p := by
  induction acc with
  | nil => rfl
  | cons b bs ih =>
    obtain ⟨hb, hbs⟩ := List.forall_mem_cons.mp hp
    rw [insertFromEnd]
    split
    · next hab =>
      rw [List.filter_cons, ih hbs]
      by_cases hpa : p a = true
      · have hpb : ¬p b = true := by
          rw [hb hab hpa]
          exact Bool.false_ne_true
        rw [List.filter_cons_of_pos hpa, List.filter_cons_of_pos hpa, List.filter_cons_of_neg hpb, if_neg hpb]
      · rw [List.filter_cons_of_neg hpa, List.filter_cons_of_neg hpa, List.filter_cons]
    · rfl

/-! ### all items -/

theorem sortItems_perm (isBefore : α → α → Bool) (as : List α) : (sortItems isBefore as).Perm as := by
  have hperm := Insertion.foldl_perm (fun a b => ¬isBefore a b = true) as []
  rw [List.append_nil] at hperm
  simp only [← insertFromEnd_eq] at hperm
  exact (List.reverse_perm _).trans hperm

theorem sortItems_sorted (h : Sorts order as) :
    (sortItems (comesBefore order) as).Pairwise fun a b => order a b ≠ .gt := by
  have hfold := List.foldlRecOn as (fun acc a => insertFromEnd (comesBefore order) a acc)
    (motive := fun acc => (∀ b ∈ acc, b ∈ as) ∧ acc.Pairwise fun c b => order b c ≠ .gt)
    ⟨fun b hb => (List.not_mem_nil hb).elim, List.Pairwise.nil⟩ fun acc hacc a ha => ?_
  · exact List.pairwise_reverse.mpr hfold.2
  · refine ⟨fun b hb => ?_, insertFromEnd_sorted h ha hacc.1 hacc.2⟩
    rcases mem_insertFromEnd.mp hb with rfl | hb
    · exact ha
    · exact hacc.1 b hb

/-- The induction is on the items that are still to be put in their places. -/
theorem foldl_filter (hp : ∀ a ∈ as, ∀ b, b ∈ as ∨ b ∈ acc → isBefore a b = true → p a = true → p b = false) :
    (as.foldl (fun acc a => insertFromEnd isBefore a acc) acc).filter p = (as.reverse ++ acc).filter p := by
  induction as generalizing acc with
  | nil => rfl
  | cons a as ih =>
    have hfirst := insertFromEnd_filter fun b hb => hp a List.mem_cons_self b (.inr hb)
    rw [List.foldl_cons, ih, List.filter_append, hfirst, ← List.filter_append, List.reverse_cons, List.append_assoc]
    · rfl
    · intro c hc b hb
      refine hp c (List.mem_cons_of_mem a hc) b ?_
      rcases hb with hb | hb
      · exact .inl (List.mem_cons_of_mem a hb)
      · rcases mem_insertFromEnd.mp hb with rfl | hb
        · exact .inl List.mem_cons_self
        · exact .inr hb

/-- **Items that share a property keep their order**, if none of them comes before another. -/
theorem sortItems_filter (hp : ∀ a ∈ as, ∀ b ∈ as, isBefore a b = true → p a = true → p b = false) :
    (sortItems isBefore as).filter p = as.filter p := by
  have hfold : (as.foldl (fun acc a => insertFromEnd isBefore a acc) []).filter p = (as.reverse ++ []).filter p := by
    refine foldl_filter fun a ha b hb => hp a ha b ?_
    rcases hb with hb | hb
    · exact hb
    · cases hb
  rw [sortItems, List.filter_reverse, hfold, List.append_nil, List.filter_reverse, List.reverse_reverse]

theorem foldl_of_sorted (h : (acc.reverse ++ as).Pairwise fun a b => isBefore b a = false) :
    as.foldl (fun acc a => insertFromEnd isBefore a acc) acc = as.reverse ++ acc := by
  induction as generalizing acc with
  | nil => rfl
  | cons a as ih =>
    have hfirst : insertFromEnd isBefore a acc = a :: acc := by
      cases acc with
      | nil => rfl
      | cons b bs =>
        have hba : isBefore a b = false :=
          (List.pairwise_append.mp h).2.2 b (List.mem_reverse.mpr List.mem_cons_self) a List.mem_cons_self
        rw [insertFromEnd, hba]
        rfl
    rw [List.foldl_cons, hfirst, ih, List.reverse_cons, List.append_assoc]
    · rfl
    · rw [List.reverse_cons, List.append_assoc]
      exact h

/-- **A sorted list stays as it is.** -/
theorem sortItems_of_sorted (h : as.Pairwise fun a b => isBefore b a = false) : sortItems isBefore as = as := by
  have hfold : as.foldl (fun acc a => insertFromEnd isBefore a acc) [] = as.reverse ++ [] := foldl_of_sorted h
  rw [sortItems, hfold, List.append_nil, List.reverse_reverse]

theorem sortItems_sortItems (h : Sorts order as) :
    sortItems (comesBefore order) (sortItems (comesBefore order) as) = sortItems (comesBefore order) as := by
  have hmem : ∀ {a}, a ∈ sortItems (comesBefore order) as → a ∈ as := (sortItems_perm _ _).mem_iff.mp
  refine sortItems_of_sorted ((sortItems_sorted h).imp_of_mem fun {a b} ha hb hab => ?_)
  rw [← Bool.not_eq_true, comesBefore_iff]
  intro hba
  rw [h.swap b (hmem hb) a (hmem ha), hba] at hab
  exact hab rfl

/-- a list in which nothing with a property comes behind something without it -/
theorem filter_append_filter (h : as.Pairwise fun a b => p b = true → p a = true) :
    as = as.filter p ++ as.filter fun a => !p a := by
  induction as with
  | nil => rfl
  | cons a as ih =>
    obtain ⟨hhead, hrest⟩ := List.pairwise_cons.mp h
    by_cases ha : p a = true
    · rw [List.filter_cons_of_pos ha, List.filter_cons_of_neg (by rw [ha]; nofun), List.cons_append, ← ih hrest]
    · have hnone : ∀ b ∈ a :: as, ¬p b = true :=
        List.forall_mem_cons.mpr ⟨ha, fun b hb hpb => ha (hhead b hb hpb)⟩
      have hall : ∀ b ∈ a :: as, (!p b) = true := fun b hb => by rw [Bool.eq_false_iff.mpr (hnone b hb)]; rfl
      rw [List.filter_eq_nil_iff.mpr hnone, List.filter_eq_self.mpr hall, List.nil_append]

end

/-! ## Keys -/

variable {key : Json → Option Json} {descending : Bool} {items : List Json} {keys : List (Option Json)}
  {k l : Option Json}

/-- the key of an item is missing, or null -/
def isMissing (key : Json → Option Json) (v : Json) : Bool := (present? (key v)).isNone

/-- A list in the order of its keys: the items with a key, and behind them those without one; items that are level keep
their order. -/
structure Arranged (key : Json → Option Json) (descending : Bool) (items result : List Json) : Prop where
  perm : result.Perm items
  missing_last : ∃ keyed, result = keyed ++ items.filter (isMissing key) ∧ (∀ v ∈ keyed, isMissing key v = false) ∧
    keyed.Pairwise fun v w => keyOrder false (key v) (key w) ≠ if descending then .lt else .gt
  stable : ∀ v ∈ items, result.filter (fun w => keyOrder false (key v) (key w) = .eq) =
    items.filter fun w => keyOrder false (key v) (key w) = .eq

/-- Keys that are all numbers, or none of them a number; null counts as no key. -/
def OneKind (keys : List (Option Json)) : Prop :=
  (∀ v, some v ∈ keys → v ≠ .null → v.double?.isSome = true) ∨ ∀ v, some v ∈ keys → v.double? = none

theorem mem_facets {f : Facet} (hf : f ∈ keys.filterMap facet?) : ∃ v, some v ∈ keys ∧ v ≠ .null ∧ f = v.facet := by
  obtain ⟨k, hk, hfacet⟩ := List.mem_filterMap.mp hf
  obtain ⟨v, hv, rfl⟩ := Option.map_eq_some_iff.mp hfacet
  refine ⟨v, present?_eq_some hv ▸ hk, ?_, rfl⟩
  rintro rfl
  rw [present?_eq_some hv] at hv
  cases hv

theorem OneKind.settled (h : OneKind keys) (hkeys : ∀ v, some v ∈ keys → v.InRange) :
    Facet.Settled (keys.filterMap facet?) := by
  intro p hp q hq t ht u w hu hw hnone
  rcases h with hall | hno
  · obtain ⟨v, hv, hnull, rfl⟩ := mem_facets ht
    obtain ⟨x, hx⟩ := Option.isSome_iff_exists.mp (hall v hv hnull)
    obtain ⟨u, hu⟩ := (hkeys v hv).units?_isSome hx
    have hsome : v.units? = none := hnone
    rw [hu] at hsome
    cases hsome
  · obtain ⟨v, hv, -, rfl⟩ := mem_facets hp
    have hsome : v.units? = some u := hu
    rw [units?_of_no_double (hno v hv)] at hsome
    cases hsome

/-- Settled keys can be sorted by. -/
theorem Facet.Settled.sorts (h : Facet.Settled ((items.map key).filterMap facet?))
    (hkeys : ∀ v, some v ∈ items.map key → v.InRange) (descending : Bool) :
    Sorts (fun v w => keyOrder descending (key v) (key w)) items := by
  have heq : ∀ k ∈ items.map key, ∀ l ∈ items.map key,
      keyOrder descending k l = missingLast (directed descending) (facet? k) (facet? l) := fun k hk l hl =>
    keyOrder_eq descending (fun v hv => hkeys v (hv ▸ hk)) fun v hv => hkeys v (hv ▸ hl)
  constructor
  · intro v hv w hw
    rw [heq _ (List.mem_map_of_mem hv) _ (List.mem_map_of_mem hw),
      heq _ (List.mem_map_of_mem hw) _ (List.mem_map_of_mem hv)]
    exact missingLast_swap (directed_swap descending) _ _
  · have hkeyed : TransitiveOn (keyOrder descending) (items.map key) := by
      rw [transitiveOn_map heq, transitiveOn_missingLast, transitiveOn_directed, List.reduceOption, List.filterMap_map]
      exact h.transitive
    exact (transitiveOn_map (f := key) fun _ _ _ _ => rfl).mpr hkeyed

theorem keyOrder_eq_eq (descending : Bool) (k l : Option Json) :
    keyOrder descending k l = .eq ↔ keyOrder false k l = .eq := by
  cases descending with
  | false => exact Iff.rfl
  | true =>
    rw [keyOrder, keyOrder]
    cases present? k <;> cases present? l
    case some.some a b => simp [Ordering.swap_eq_eq]
    all_goals rfl

/-- keys in their order, as the ascending order sees them -/
theorem keyOrder_not_gt (hk : (present? k).isSome = true) (hl : (present? l).isSome = true)
    (h : keyOrder descending k l ≠ .gt) : keyOrder false k l ≠ if descending then .lt else .gt := by
  cases descending with
  | false => exact h
  | true =>
    obtain ⟨a, ha⟩ := Option.isSome_iff_exists.mp hk
    obtain ⟨b, hb⟩ := Option.isSome_iff_exists.mp hl
    rw [keyOrder, ha, hb] at h ⊢
    intro hlt
    have hgt : (valueOrder a b).swap = .gt := congrArg Ordering.swap hlt
    exact h hgt

theorem sortBy_eq (key : Json → Option Json) (descending : Bool) (items : List Json) :
    sortBy key descending items = sortItems (comesBefore fun v w => keyOrder descending (key v) (key w)) items := rfl

/-- **Items with keys of one kind are arranged by them.** -/
theorem sortBy_arranged (hkind : OneKind (items.map key)) (hkeys : ∀ v, some v ∈ items.map key → v.InRange)
    (descending : Bool) : Arranged key descending items (sortBy key descending items) := by
  have hsorts := (hkind.settled hkeys).sorts hkeys descending
  have hsorted := sortItems_sorted hsorts
  rw [← sortBy_eq] at hsorted
  refine ⟨sortItems_perm _ _, ?_, fun v hv => sortItems_filter fun a ha b hb hab hva => ?_⟩
  · -- nothing with a key is behind something without one, so the list falls into two parts
    have hsplit : sortBy key descending items = _ := filter_append_filter (p := fun v => !isMissing key v) <| by
      refine hsorted.imp fun {v w} hvw hw => ?_
      rw [Bool.not_eq_true', isMissing, Option.isNone_eq_false_iff] at hw ⊢
      by_contra hv
      obtain ⟨b, hb⟩ := Option.isSome_iff_exists.mp hw
      rw [keyOrder, Option.not_isSome_iff_eq_none.mp hv, hb] at hvw
      exact hvw rfl
    have hlast : (sortBy key descending items).filter (isMissing key) = items.filter (isMissing key) := by
      rw [sortBy_eq]
      refine sortItems_filter fun a _ b _ hab ha => ?_
      rw [isMissing, Option.isNone_iff_eq_none] at ha
      rw [comesBefore_iff, keyOrder, ha] at hab
      cases hb : present? (key b) <;> rw [hb] at hab <;> cases hab
    simp only [Bool.not_not, hlast] at hsplit
    refine ⟨_, hsplit, fun v hv => ?_, ?_⟩
    · exact (Bool.not_eq_true' _).mp (List.mem_filter.mp hv).2
    · refine (hsorted.filter _).imp_of_mem fun {v w} hv hw hvw => ?_
      have hpresent : ∀ {v}, v ∈ (sortBy key descending items).filter (fun v => !isMissing key v) →
          (present? (key v)).isSome = true := fun hv => by
        have hv := (List.mem_filter.mp hv).2
        rwa [Bool.not_eq_true', isMissing, Option.isNone_eq_false_iff] at hv
      exact keyOrder_not_gt (hpresent hv) (hpresent hw) hvw
  · rw [decide_eq_true_iff, ← keyOrder_eq_eq descending] at hva
    rw [decide_eq_false_iff_not, ← keyOrder_eq_eq descending]
    exact hsorts.not_level hv ha hb hab hva

theorem sortBy_sortBy (hkind : OneKind (items.map key)) (hkeys : ∀ v, some v ∈ items.map key → v.InRange)
    (descending : Bool) : sortBy key descending (sortBy key descending items) = sortBy key descending items :=
  sortItems_sortItems ((hkind.settled hkeys).sorts hkeys descending)

end Workflows.Json
