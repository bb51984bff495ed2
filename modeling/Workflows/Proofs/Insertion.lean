import Mathlib.Data.List.Sort

/-!
# Sorting by insertion

A list is sorted by putting one item after the other in front of the first that it comes before, and so behind all that
it is level with.

* `Ranks`   an order in which items can be level with each other
* `Sorted`  a list in which no item comes before one in front of it

Main statements: no item is lost or added (`foldl_perm`), and a list stays sorted (`foldl_sorted`).
-/

namespace Workflows.Insertion

variable {α : Type} {before : α → α → Prop} {as acc : List α}

/-- An order in which items can be level with each other. -/
structure Ranks (before : α → α → Prop) : Prop where
  asymm : ∀ {a b}, before a b → ¬before b a
  trans : ∀ {a b c}, ¬before b a → ¬before c b → ¬before c a

/-- an order by a property of items -/
theorem Ranks.on {β : Type} (h : Ranks before) (f : β → α) : Ranks fun b c => before (f b) (f c) :=
  ⟨h.asymm, h.trans⟩

/-- no item comes before one that stands in front of it -/
def Sorted (before : α → α → Prop) (as : List α) : Prop := as.Pairwise fun a b => ¬before b a

variable [DecidableRel before]

theorem orderedInsert_sorted (h : Ranks before) (a : α) (has : Sorted before as) :
    Sorted before (as.orderedInsert before a) := by
  induction as with
  | nil => exact List.pairwise_singleton _ _
  | cons b bs ih =>
    obtain ⟨hhead, hrest⟩ := List.pairwise_cons.mp has
    rw [List.orderedInsert_cons]
    split
    · next hab =>
      refine List.pairwise_cons.mpr ⟨fun c hc => ?_, has⟩
      rcases List.mem_cons.mp hc with rfl | hc
      · exact h.asymm hab
      · exact h.trans (h.asymm hab) (hhead c hc)
    · next hab =>
      refine List.pairwise_cons.mpr ⟨fun c hc => ?_, ih hrest⟩
      rcases (List.mem_orderedInsert before).mp hc with rfl | hc
      · exact hab
      · exact hhead c hc

/-! ## several items -/

theorem foldl_perm (before : α → α → Prop) [DecidableRel before] (as acc : List α) :
    (as.foldl (fun acc a => acc.orderedInsert before a) acc).Perm (as ++ acc) := by
  induction as generalizing acc with
  | nil => exact List.Perm.refl _
  | cons a as ih =>
    have hfirst : (as ++ acc.orderedInsert before a).Perm (as ++ a :: acc) :=
      (List.perm_orderedInsert before a acc).append_left as
    exact ((ih _).trans hfirst).trans List.perm_middle

/-- The induction is on the items that are still to be put in their places. -/
theorem foldl_sorted (h : Ranks before) (as : List α) (hacc : Sorted before acc) :
    Sorted before (as.foldl (fun acc a => acc.orderedInsert before a) acc) := by
  induction as generalizing acc with
  | nil => exact hacc
  | cons a as ih => exact ih (orderedInsert_sorted h a hacc)

end Workflows.Insertion
