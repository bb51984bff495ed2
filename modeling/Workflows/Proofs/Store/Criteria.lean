import Workflows.Proofs.Json.Numbers
import Workflows.Proofs.Store.Selection

/-!
# Criteria for integers

A criterion for an integer is met by numbers with the same nearest double, so that integers beyond `2 ^ 53` can be
mistaken for each other.

* `Member`        a record with a member of some kind
* `OnlyTouches`   operations that find, change and drop records of some kind only

Main statement: operations touch records only where the member is near to the integer, and below `2 ^ 53` only where it
equals it (`integer_criterion`).
-/

namespace Workflows

variable {v : Json} {n : Int} {field : String} {criteria fields : Vars}

namespace Json

/-- an integer is asked for as its nearest double -/
theorem meets_int (hv : v.InRange) (hn : (Json.int n).InRange) : v.meets (.int n) = true ↔ v.Nears n := by
  have hasked : (Json.int n).double? = some (Float.ofInt n) := rfl
  have hunits := units?_int hn
  rw [units?_of_double? hasked] at hunits
  rw [Nears, meets, hasked]
  cases hx : v.double? with
  | none =>
    have hsame : v.same (.int n) = false := by
      cases v with
      | int m => cases hx
      | _ => rfl
    rw [units?_of_no_double hx, hsame]
    exact iff_of_false Bool.false_ne_true (Option.some_ne_none _).symm
  | some x =>
    obtain ⟨u, hu⟩ := hv.units?_isSome hx
    rw [hu]
    rw [units?_of_double? hx] at hu
    rw [Double.beq_iff_units hu hunits, Option.some.injEq]

end Json

namespace Store
variable {s : Store} {collection : String} {P Q : Json → Prop}

/-- A record has a member of some kind. -/
def Member (field : String) (P : Json → Prop) (r : Json) : Prop := ∃ v, r.member? field = some v ∧ P v

/-- Operations with the same criteria find, change and drop only records of some kind. -/
structure OnlyTouches (s : Store) (collection : String) (criteria fields : Vars) (P : Json → Prop) : Prop where
  found : ∀ rs, (s.find collection criteria).1 = .ok rs → ∀ r ∈ rs, P r
  /-- each record keeps its place, and the others are as they were -/
  changed : List.Forall₂ (fun old new => P old ∨ new = old) (s.records collection)
    ((s.update collection criteria fields).2.records collection)
  dropped : ∃ keep : Json → Bool, (s.delete collection criteria).2.records collection =
    (s.records collection).filter keep ∧ ∀ r ∈ s.records collection, keep r = false → P r

/-- operations go by the criteria alone -/
theorem onlyTouches_of_satisfies
    (h : ∀ r ∈ s.records collection, r.satisfies criteria = true → P r) (fields : Vars) :
    s.OnlyTouches collection criteria fields P := by
  cases hstate : Dict.get? s.failing collection with
  | some reason =>
    refine ⟨fun rs hrs => ?_, ?_, fun _ => true, ?_, fun _ _ hkeep => nomatch hkeep⟩
    · rw [find, access_failing hstate] at hrs
      cases hrs
    · rw [update, access_failing hstate]
      exact List.forall₂_same.mpr fun r _ => .inr rfl
    · rw [delete, access_failing hstate, List.filter_true]
      rfl
  | none =>
    obtain ⟨_, hchanged⟩ := update_open hstate criteria fields
    obtain ⟨_, hleft⟩ := delete_open hstate criteria
    refine ⟨fun rs hrs r hr => ?_, ?_, fun r => !r.satisfies criteria, hleft.records, fun r hr hkeep => ?_⟩
    · rw [find_open hstate, Except.ok.injEq] at hrs
      rw [← hrs, selected, List.mem_filter] at hr
      exact h r hr.1 hr.2
    · rw [hchanged.records, List.forall₂_map_right_iff, List.forall₂_same]
      intro r hr
      split
      · next hchosen => exact .inl (h r hr (Bool.and_eq_true_iff.mp hchosen).1)
      · exact .inr rfl
    · rw [Bool.not_eq_eq_eq_not, Bool.not_false] at hkeep
      exact h r hr hkeep

theorem member_of_satisfies {r expected : Json} (hcriterion : (field, expected) ∈ criteria)
    (h : r.satisfies criteria = true) : Member field (fun v => v.meets expected = true) r := by
  have hmeets := List.all_eq_true.mp h _ hcriterion
  cases hv : r.member? field with
  | some v =>
    rw [hv] at hmeets
    exact ⟨v, hv, hmeets⟩
  | none =>
    rw [hv] at hmeets
    cases hmeets

/-- **A criterion for an integer selects by the nearest double.** -/
theorem integer_criterion (hn : (Json.int n).InRange) (hcriterion : (field, .int n) ∈ criteria)
    (hrecords : ∀ r ∈ s.records collection, ∀ v, r.member? field = some v → v.InRange) (fields : Vars) :
    s.OnlyTouches collection criteria fields (Member field (·.Nears n)) ∧
    (n.natAbs < 2 ^ 53 → s.OnlyTouches collection criteria fields (Member field (·.Equals n))) ∧
    ∀ r ∈ s.records collection, r.satisfies [(field, .int n)] = true ↔ Member field (·.Nears n) r := by
  have hnear : ∀ {cs : Vars}, (field, .int n) ∈ cs → ∀ r ∈ s.records collection, r.satisfies cs = true →
      Member field (·.Nears n) r := fun hmem r hr h => by
    obtain ⟨v, hv, hmeets⟩ := member_of_satisfies hmem h
    exact ⟨v, hv, (Json.meets_int (hrecords r hr v hv) hn).mp hmeets⟩
  refine ⟨onlyTouches_of_satisfies (hnear hcriterion) fields, fun hsmall => ?_, fun r hr => ?_⟩
  · refine onlyTouches_of_satisfies (fun r hr h => ?_) fields
    obtain ⟨v, hv, hv'⟩ := hnear hcriterion r hr h
    exact ⟨v, hv, (Json.nears_iff_equals (hrecords r hr v hv) hsmall).mp hv'⟩
  · refine ⟨hnear List.mem_cons_self r hr, fun ⟨v, hv, hv'⟩ => ?_⟩
    rw [Json.satisfies, List.all_cons, List.all_nil, Bool.and_true, hv]
    exact (Json.meets_int (hrecords r hr v hv) hn).mpr hv'

namespace Sample

def numbered (n : Int) : Json := .obj [("number", .int n)]

def invoices : Store := { collections := [("invoices", [numbered 7, numbered 9007199254740993])] }

end Sample

theorem integer_criterion_small :
    Sample.invoices.OnlyTouches "invoices" [("number", .int 7)] [("paid", .bool true)]
        (Member "number" (·.Equals 7)) ∧
      (Sample.invoices.delete "invoices" [("number", .int 7)]).2.records "invoices" =
        [Sample.numbered 9007199254740993] := by
  have hrecords : ∀ r ∈ Sample.invoices.records "invoices", ∀ v, r.member? "number" = some v → v.InRange := by
    intro r hr v hv
    simp only [Sample.invoices, records, Dict.get?, if_true, Option.getD_some, List.mem_cons, List.not_mem_nil,
      or_false] at hr
    rcases hr with rfl | rfl <;> cases hv <;> exact ⟨by decide, by decide⟩
  have hmem : ("number", Json.int 7) ∈ ([("number", .int 7)] : Vars) := List.mem_cons_self
  have hseven := integer_criterion ⟨by decide, by decide⟩ hmem hrecords [("paid", .bool true)]
  exact ⟨hseven.2.1 (by decide), by decide +kernel⟩

/-- One integer is asked for, and the next one is found and dropped. -/
theorem integer_criterion_neighbours :
    (Sample.invoices.find "invoices" [("number", .int 9007199254740992)]).1.toOption =
        some [Sample.numbered 9007199254740993] ∧
      (Sample.invoices.delete "invoices" [("number", .int 9007199254740992)]).2.records "invoices" =
        [Sample.numbered 7] ∧
      ¬Member "number" (·.Equals 9007199254740992) (Sample.numbered 9007199254740993) := by
  refine ⟨by decide +kernel, by decide +kernel, fun ⟨v, hv, hequal⟩ => ?_⟩
  cases hv
  have hne : (9007199254740993 : Int) ≠ 9007199254740992 := by decide
  exact hne hequal

end Store
end Workflows
