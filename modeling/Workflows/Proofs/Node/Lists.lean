import Mathlib.Data.Finset.Max
import Workflows.Proofs.Json.Aggregates
import Workflows.Proofs.Json.Sorting
import Workflows.Proofs.Node.Declared
import Workflows.Proofs.Node.Retry

/-!
# Nodes that shape lists

What the nodes for sorting and for aggregates report about a list.

* `integersOf`   the integers among the items of a list, or among their values at a path
* `Rounds`       what an operation gives for integers, and where this is exact

Main statements: a sort node arranges its list by keys of one kind (`sort_arranged`), and an aggregate of integers is
rounded to 53 significant bits (`aggregate_rounded`).
-/

namespace Workflows.Node
open NodeRun Json

variable {n : Node} {s : Session} {items : List Json}

theorem execute_of_ok {c : NodeContext} {o : Outcome} (h : (runFrom (n.handle c) s).1 = .ok o) :
    ((n.execute c).run s).1 = o := by
  rw [execute_run, h]
  rfl

/-! ## Sorting -/

theorem runFrom_sort {t : SortSettings} {descending : Bool} (ht : n.read? SortSettings.decode = some t)
    (horder : isDescending? ((t.order.map Text.lowercase).getD "asc") = some descending)
    (hitems : resolve s.vars t.input = .arr items) :
    (runFrom n.sort s).1 = .ok (.done (.ofMembers [("result", .arr (sortBy (keyOf t.key) descending items))])) := by
  have hlist : runFrom (itemsOf n (resolve s.vars t.input)) s = (.ok items, s) := by
    rw [hitems]
    rfl
  have hdemand : ∀ reason, runFrom (demand (isDescending? ((t.order.map Text.lowercase).getD "asc")) reason) s =
      (.ok descending, s) := by
    intro reason
    rw [horder]
    rfl
  obtain ⟨vs, hset⟩ := runFrom_setVar? t.outputVariable (.arr (sortBy (keyOf t.key) descending items)) s
  unfold sort
  rw [runFrom_bind_ok (runFrom_settings ht s), runFrom_bind_ok (runFrom_vars s), runFrom_bind_ok hlist,
    runFrom_bind_ok (hdemand _), runFrom_bind_ok hset]
  rfl

/-- **A sort node arranges its list by keys of one kind**, and leaves a list alone that it has arranged. -/
theorem sort_arranged (c : NodeContext) {t : SortSettings} {descending : Bool} (hk : n.kind = .sort)
    (ht : n.read? SortSettings.decode = some t)
    (horder : isDescending? ((t.order.map Text.lowercase).getD "asc") = some descending)
    (hitems : resolve s.vars t.input = .arr items)
    (hkeys : ∀ v, some v ∈ items.map (keyOf t.key) → v.InRange) (hkind : OneKind (items.map (keyOf t.key))) :
    ∃ result, ((n.execute c).run s).1 = .done (.ofMembers [("result", .arr result)]) ∧
      Arranged (keyOf t.key) descending items result ∧
      ∀ u : Session, resolve u.vars t.input = .arr result →
        ((n.execute c).run u).1 = .done (.ofMembers [("result", .arr result)]) := by
  have hrun : ∀ (u : Session) (list : List Json), resolve u.vars t.input = .arr list → ((n.execute c).run u).1 =
      .done (.ofMembers [("result", .arr (sortBy (keyOf t.key) descending list))]) := by
    intro u list hlist
    have hh : n.handle c = n.sort := by rw [handle, hk]
    refine execute_of_ok ?_
    rw [hh]
    exact runFrom_sort ht horder hlist
  refine ⟨sortBy (keyOf t.key) descending items, hrun s items hitems, sortBy_arranged hkind hkeys descending, ?_⟩
  intro u hu
  rw [hrun u _ hu, sortBy_sortBy hkind hkeys descending]

namespace Sample

/-- sorted by their totals, the greatest first -/
def byTotal : Node :=
  ⟨"sort", .sort, none, .obj [("input", .str "orders"), ("key", .str "total"), ("order", .str "Desc")]⟩

def order (id : Int) (total : Json) : Json := .obj [("id", .int id), ("total", total)]

/-- two orders with the same total, and two without one -/
def orders : List Json :=
  [order 1 (.int 30), order 2 .null, order 3 (.int 50), order 4 (.int 30), .obj [("id", .int 5)]]

def ordersByTotal : List Json :=
  [order 3 (.int 50), order 1 (.int 30), order 4 (.int 30), order 2 .null, .obj [("id", .int 5)]]

def withOrders : Session := { session with vars := [("orders", .arr orders)] }

end Sample

theorem sort_arranged_totals :
    ((Sample.byTotal.execute Sample.recovering).run Sample.withOrders).1 =
      .done (.ofMembers [("result", .arr Sample.ordersByTotal)]) ∧
    Arranged (keyOf (some "total")) true Sample.orders Sample.ordersByTotal := by
  have ht : Sample.byTotal.read? SortSettings.decode = some ⟨.str "orders", some "total", some "Desc", none⟩ := rfl
  have hkeys : Sample.orders.map (keyOf (some "total")) =
      [some (.int 30), some .null, some (.int 50), some (.int 30), none] := rfl
  have hnumbers : ∀ v, some v ∈ Sample.orders.map (keyOf (some "total")) →
      v.InRange ∧ (v ≠ .null → v.double?.isSome) := by
    intro v hv
    simp only [hkeys, List.mem_cons, Option.some.injEq, List.not_mem_nil, or_false, reduceCtorEq] at hv
    rcases hv with rfl | rfl | rfl | rfl
    · exact ⟨⟨by decide, by decide⟩, fun _ => rfl⟩
    · exact ⟨trivial, fun h => absurd rfl h⟩
    · exact ⟨⟨by decide, by decide⟩, fun _ => rfl⟩
    · exact ⟨⟨by decide, by decide⟩, fun _ => rfl⟩
  have hrun : ((Sample.byTotal.execute Sample.recovering).run Sample.withOrders).1 =
      .done (.ofMembers [("result", .arr Sample.ordersByTotal)]) := by decide +kernel
  have hdescending : isDescending? (((some "Desc").map Text.lowercase).getD "asc") = some true := by decide
  have horders : resolve Sample.withOrders.vars (.str "orders") = .arr Sample.orders := by decide +kernel
  obtain ⟨result, hresult, harranged, -⟩ := sort_arranged (s := Sample.withOrders) Sample.recovering rfl ht hdescending
    horders (fun v hv => (hnumbers v hv).1) (.inl fun v hv => (hnumbers v hv).2)
  rw [hrun] at hresult
  cases hresult
  exact ⟨hrun, harranged⟩

/-! ## Aggregates -/

/-- the integers among the items, or among their values at a path -/
def integersOf (path : Option String) (items : List Json) : List Int :=
  items.filterMap fun item => (keyOf path item).bind Json.int?

/-- integers are aggregated as doubles, and what is no number is skipped -/
theorem numbersOf_integers {path : Option String} (h : ∀ item ∈ items, ∀ x, keyOf path item ≠ some (.double x)) :
    numbersOf path items = (integersOf path items).map Float.ofInt := by
  rw [numbersOf, integersOf, List.map_filterMap]
  refine List.filterMap_congr fun item hitem => ?_
  have hdouble := h item hitem
  rcases hv : keyOf path item with _ | v
  · rfl
  · cases v with
    | double x => exact absurd hv (hdouble x)
    | _ => rfl

theorem runFrom_aggregate {t : AggregateSettings} {kind : Aggregate} (ht : n.read? AggregateSettings.decode = some t)
    (hkind : Aggregate.ofName? (t.operation.getD "sum") = some kind) (hitems : resolve s.vars t.input = .arr items) :
    (runFrom n.aggregate s).1 = .ok (.done (.ofMembers [("operation", .str (t.operation.getD "sum")),
      ("result", kind.of (numbersOf t.field items))])) := by
  have hlist : runFrom (itemsOf n (resolve s.vars t.input)) s = (.ok items, s) := by
    rw [hitems]
    rfl
  have hdemand : ∀ reason, runFrom (demand (Aggregate.ofName? (t.operation.getD "sum")) reason) s = (.ok kind, s) := by
    intro reason
    rw [hkind]
    rfl
  obtain ⟨vs, hset⟩ := runFrom_setVar? t.outputVariable (kind.of (numbersOf t.field items)) s
  unfold aggregate
  rw [runFrom_bind_ok (runFrom_settings ht s), runFrom_bind_ok (runFrom_vars s), runFrom_bind_ok hlist,
    runFrom_bind_ok (hdemand _), runFrom_bind_ok hset]
  rfl

theorem exists_isLeast {ns : List Int} (h : ns ≠ []) : ∃ m, IsLeast {k | k ∈ ns} m := by
  have hleast := ns.toFinset.isLeast_min' (List.toFinset_nonempty_iff ns |>.mpr h)
  rw [List.coe_toFinset] at hleast
  exact ⟨_, hleast⟩

theorem exists_isGreatest {ns : List Int} (h : ns ≠ []) : ∃ m, IsGreatest {k | k ∈ ns} m := by
  have hgreatest := ns.toFinset.isGreatest_max' (List.toFinset_nonempty_iff ns |>.mpr h)
  rw [List.coe_toFinset] at hgreatest
  exact ⟨_, hgreatest⟩

/-- What an operation gives for integers: the least and the greatest are rounded, and a sum after every item. -/
structure Rounds (kind : Aggregate) (ns : List Int) (result : Json) : Prop where
  min : kind = .min → ∃ m, IsLeast {k | k ∈ ns} m ∧ Whole result (Number.nearest m) ∧
    (result = .int m ↔ Number.nearest m = m ∧ m.natAbs < 2 ^ 63)
  max : kind = .max → ∃ m, IsGreatest {k | k ∈ ns} m ∧ Whole result (Number.nearest m) ∧
    (result = .int m ↔ Number.nearest m = m ∧ m.natAbs < 2 ^ 63)
  sum : kind = .sum → Whole result (Number.roundedSum ns) ∧
    ((∀ k ∈ ns, k.natAbs ≤ 2 ^ 53) → (∀ ks, ks <+: ns → ks.sum.natAbs ≤ 2 ^ 53) → result = .int ns.sum)

theorem of_rounds {kind : Aggregate} {ns : List Int} (hne : ns ≠ []) (hns : ∀ k ∈ ns, k.natAbs < 2 ^ 64) :
    Rounds kind ns (kind.of (ns.map Float.ofInt)) := by
  refine ⟨?_, ?_, ?_⟩
  · rintro rfl
    obtain ⟨m, hm⟩ := exists_isLeast hne
    have hwhole := Aggregate.min_whole hns hm
    exact ⟨m, hm, hwhole, hwhole.eq_int_iff⟩
  · rintro rfl
    obtain ⟨m, hm⟩ := exists_isGreatest hne
    have hwhole := Aggregate.max_whole hns hm
    exact ⟨m, hm, hwhole, hwhole.eq_int_iff⟩
  · rintro rfl
    have hwhole := Aggregate.sum_whole hns
    refine ⟨hwhole, fun hitems htotals => hwhole.eq_int_iff.mpr ⟨Number.roundedSum_eq_sum hitems htotals, ?_⟩⟩
    have hall := htotals ns (List.prefix_refl ns)
    omega

/-- **An aggregate of integers is rounded to 53 significant bits.** -/
theorem aggregate_rounded (c : NodeContext) {t : AggregateSettings} {kind : Aggregate} (hk : n.kind = .aggregate)
    (ht : n.read? AggregateSettings.decode = some t) (hkind : Aggregate.ofName? (t.operation.getD "sum") = some kind)
    (hitems : resolve s.vars t.input = .arr items) (hwhole : ∀ item ∈ items, ∀ x, keyOf t.field item ≠ some (.double x))
    (hne : integersOf t.field items ≠ [])
    (hfits : ∀ k ∈ integersOf t.field items, Number.minInt64 ≤ k ∧ k ≤ Number.maxInt64) :
    ∃ result, ((n.execute c).run s).1 =
        .done (.ofMembers [("operation", .str (t.operation.getD "sum")), ("result", result)]) ∧
      Rounds kind (integersOf t.field items) result := by
  have hh : n.handle c = n.aggregate := by rw [handle, hk]
  have hbound : ∀ k ∈ integersOf t.field items, k.natAbs < 2 ^ 64 := by
    intro k hk
    have hbounds : Number.minInt64 = -2 ^ 63 ∧ Number.maxInt64 = 2 ^ 63 - 1 := by decide
    have hfit := hfits k hk
    omega
  refine ⟨kind.of (numbersOf t.field items), execute_of_ok ?_, ?_⟩
  · rw [hh]
    exact runFrom_aggregate ht hkind hitems
  · rw [numbersOf_integers hwhole]
    exact of_rounds hne hbound

namespace Sample

def aggregating (operation : String) (items : List Json) : Node :=
  ⟨"total", .aggregate, none, .obj [("input", .arr items), ("operation", .str operation)]⟩

/-- integers around `2 ^ 53`, and a text -/
def amounts : List Json := [.int 9007199254740995, .str "n/a", .int 9007199254740993, .int 9007199254740997]

/-- what an aggregate node reports -/
def report (operation : String) (result : Json) : Outcome :=
  .done (.ofMembers [("operation", .str operation), ("result", result)])

end Sample

theorem aggregate_rounded_least :
    integersOf none Sample.amounts = [9007199254740995, 9007199254740993, 9007199254740997] ∧
    (((Sample.aggregating "min" Sample.amounts).execute Sample.recovering).run Sample.session).1 =
      Sample.report "min" (.int 9007199254740992) := by
  have hints : integersOf none Sample.amounts = [9007199254740995, 9007199254740993, 9007199254740997] := rfl
  have ht : (Sample.aggregating "min" Sample.amounts).read? AggregateSettings.decode =
      some ⟨.arr Sample.amounts, some "min", none, none⟩ := rfl
  have hdoubles : ∀ item ∈ Sample.amounts, ∀ x, keyOf none item ≠ some (.double x) := by
    intro item hitem x hx
    simp only [Sample.amounts, List.mem_cons, List.not_mem_nil, or_false] at hitem
    rcases hitem with rfl | rfl | rfl | rfl <;> cases hx
  have hkind : Aggregate.ofName? ((some "min").getD "sum") = some .min := rfl
  have hitems : resolve Sample.session.vars (.arr Sample.amounts) = .arr Sample.amounts := rfl
  obtain ⟨result, hrun, hrounds⟩ := aggregate_rounded Sample.recovering rfl ht hkind hitems hdoubles
    (by rw [hints]; exact List.cons_ne_nil _ _) (by rw [hints]; decide)
  obtain ⟨m, hm, hwhole, -⟩ := hrounds.min rfl
  rw [hints] at hm
  have hleast : m = 9007199254740993 := by
    have hmem : m ∈ [9007199254740995, 9007199254740993, 9007199254740997] := hm.1
    have hle : m ≤ 9007199254740993 := hm.2 (List.mem_cons_of_mem _ List.mem_cons_self)
    simp only [List.mem_cons, List.not_mem_nil, or_false] at hmem
    omega
  rw [hleast, show Number.nearest 9007199254740993 = 9007199254740992 by decide] at hwhole
  refine ⟨hints, ?_⟩
  rw [hrun]
  exact congrArg (Sample.report "min") (hwhole.eq_int_iff.mpr ⟨rfl, by decide⟩)

/-- The least integer of a list can be missing from it, and a sum of two integers can be one too small. -/
theorem aggregate_inexact :
    (((Sample.aggregating "min" [.int 9007199254740993]).execute Sample.recovering).run Sample.session).1 =
        Sample.report "min" (.int 9007199254740992) ∧
      (((Sample.aggregating "sum" [.int 9007199254740992, .int 1]).execute Sample.recovering).run Sample.session).1 =
        Sample.report "sum" (.int 9007199254740992) ∧
      (((Sample.aggregating "min" [.int (-9223372036854775808)]).execute Sample.recovering).run Sample.session).1 ≠
        Sample.report "min" (.int (-9223372036854775808)) := by
  decide +kernel

end Workflows.Node
