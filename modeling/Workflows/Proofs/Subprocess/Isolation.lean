import Mathlib.Data.List.Basic
import Workflows.Subprocess.Mapping
import Workflows.Proofs.Expr.Observed

/-!
# Isolated children

An isolated child starts with the mapped inputs alone.  What they can tell it of its parent is bounded by the names
that their sources observe: a path observes what it looks up, and a template what its placeholders look up and what
the filled text names.  The last kind is not written in the mapping.  A parent chooses it with the text of a variable,
and the value of a variable that no source mentions can reach the child in this way.

* `sourceNames`        the variables that the value of a source depends on;
* `mappedInputs_congr` the mapped inputs depend on these alone.

Main statement: `isolated_child_observes`.
-/

namespace Workflows

variable {parent other : Vars} {mapping : Dict String}

/-- the variables that the value of a source depends on -/
def sourceNames (parent : Vars) (source : String) : List String :=
  if Text.occursIn "$\x7b" source then observed parent source else pathNames source

theorem sourceValue?_congr {source : String} (h : Vars.AgreeOn (sourceNames parent source) parent other) :
    sourceValue? parent source = sourceValue? other source := by
  unfold sourceNames at h
  unfold sourceValue?
  split
  · next htemplate =>
    rw [if_pos htemplate] at h
    rw [evaluate, evaluate, evaluateText_congr h]
  · next hpath =>
    rw [if_neg hpath] at h
    exact lookup?_congr h

theorem mappedInputs_congr (h : ∀ m ∈ mapping, Vars.AgreeOn (sourceNames parent m.2) parent other) :
    mappedInputs parent mapping = mappedInputs other mapping := by
  refine List.filterMap_congr fun m hm => ?_
  rw [sourceValue?_congr (h m hm)]

theorem mappedInputs_name {e : String × Json} (h : e ∈ mappedInputs parent mapping) : e.1 ∈ Dict.keys mapping := by
  obtain ⟨m, hm, hvalue⟩ := List.mem_filterMap.mp h
  obtain ⟨v, -, rfl⟩ := Option.map_eq_some_iff.mp hvalue
  exact List.mem_map_of_mem hm

/-- what an overlay holds comes from below or from above -/
theorem Dict.mem_of_mem_overlay {α : Type} {lower upper : Dict α} {e : String × α} (h : e ∈ overlay lower upper) :
    e ∈ lower ∨ e ∈ upper := by
  induction upper generalizing lower with
  | nil => exact .inl h
  | cons u upper ih =>
    rcases ih h with hlower | hupper
    · rcases mem_of_mem_insert hlower with rfl | hlower
      · exact .inr List.mem_cons_self
      · exact .inl hlower
    · exact .inr (List.mem_cons_of_mem u hupper)

/-- **An isolated child has variables of the mapping only, and they are the same for any two parents that agree on the
names that the sources observe.** -/
theorem isolated_child_observes (parent other : Vars) (mapping : Dict String)
    (h : ∀ m ∈ mapping, Vars.AgreeOn (sourceNames parent m.2) parent other) :
    childVariables parent mapping true = childVariables other mapping true ∧
      ∀ e ∈ childVariables parent mapping true, e.1 ∈ Dict.keys mapping := by
  constructor
  · simp only [childVariables, if_true, mappedInputs_congr h]
  · intro e he
    rcases Dict.mem_of_mem_overlay he with hnone | hmapped
    · cases hnone
    · exact mappedInputs_name hmapped

namespace Sample

/-- a parent whose variable `a` holds the name of another of its variables -/
def parentWith (secret b : Int) : Vars := [("a", .str "secret"), ("b", .int b), ("secret", .int secret)]

/-- The parents differ in the variable `secret` only, which the source does not mention, and the child is told. -/
theorem isolated_child_told :
    (∀ name, name ≠ "secret" → Dict.get? (parentWith 42 0) name = Dict.get? (parentWith 43 0) name) ∧
      Text.occursIn "secret" "$\x7ba\x7d" = false ∧
      childVariables (parentWith 42 0) [("x", "$\x7ba\x7d")] true = [("x", .int 42)] ∧
      childVariables (parentWith 43 0) [("x", "$\x7ba\x7d")] true = [("x", .int 43)] := by
  refine ⟨?_, by decide +kernel, by decide +kernel, by decide +kernel⟩
  intro name hname
  simp [parentWith, Dict.get?, hname]

/-- the source looks `a` up, and then names what it has found there -/
theorem sourceNames_told :
    sourceNames (parentWith 42 0) "$\x7ba\x7d" = ["a", "a", "secret"] := by
  decide +kernel

theorem isolated_child_observes_told :
    (∀ m ∈ [("x", "$\x7ba\x7d")], Vars.AgreeOn (sourceNames (parentWith 42 0) m.2) (parentWith 42 0) (parentWith 42 1)) ∧
      childVariables (parentWith 42 0) [("x", "$\x7ba\x7d")] true =
        childVariables (parentWith 42 1) [("x", "$\x7ba\x7d")] true := by
  have h : ∀ m ∈ [("x", "$\x7ba\x7d")],
      Vars.AgreeOn (sourceNames (parentWith 42 0) m.2) (parentWith 42 0) (parentWith 42 1) := by
    intro m hm name hname
    rw [List.mem_singleton.mp hm, sourceNames_told] at hname
    have hne : name ≠ "b" := by
      rintro rfl
      simp at hname
    simp [parentWith, Dict.get?, hne]
  exact ⟨h, (isolated_child_observes _ _ _ h).1⟩

end Sample
end Workflows
