import Workflows.Node.Execute
import Workflows.Proofs.World

/-!
# Computations that leave instances alone

* `Apart`       a computation that changes the world only aside from instances, links and
                definitions, and what its answers satisfy
* `Childless`   an outcome that says what it waits for, if it waits, and that is no child
-/

namespace Workflows
variable {α β : Type}

/-- A computation that leaves instances alone, and whose answers satisfy `P`. -/
def NodeRun.Apart (P : α → Prop) (x : NodeRun α) : Prop :=
  ∀ s, Aside s.world (runFrom x s).2.world ∧ ∀ a, (runFrom x s).1 = .ok a → P a

/-- no condition on the answers of a computation -/
def Unconditional : α → Prop := fun _ => True

structure Outcome.Childless (o : Outcome) : Prop where
  kind : ∀ w, o.wait = some w → w.kind ≠ .subprocess
  named : o.status = .waiting → o.wait.isSome = true

theorem Outcome.childless_of_none {o : Outcome} (h : o.wait = none) (hs : o.status ≠ .waiting) :
    o.Childless := by
  refine ⟨fun w hw => ?_, fun hw => absurd hw hs⟩
  rw [h] at hw
  cases hw

theorem Outcome.childless_waiting {kind : WaitKind} (h : kind ≠ .subprocess) (id : String)
    (deadline : Option Instant) (v : Option Json) :
    (Outcome.waiting ⟨kind, id, deadline⟩ v).Childless := by
  refine ⟨fun w hw => ?_, fun _ => rfl⟩
  cases hw
  exact h

namespace Store

/-! ### records -/

/-- an operation on a collection leaves instances alone if its body does -/
theorem core_access (s : Store) (collection : String) {f : Store → Except StorageError α × Store}
    (h : ∀ t, (f t).2.core = t.core) : (s.access collection f).2.core = s.core := by
  unfold access
  split
  · rfl
  · exact h (s.touch collection)

theorem core_find (s : Store) (collection : String) (criteria : Vars) :
    (s.find collection criteria).2.core = s.core :=
  core_access s collection fun _ => rfl

theorem core_insert (s : Store) (collection : String) (record : Json) (freshId : String) :
    (s.insert collection record freshId).2.core = s.core := by
  refine core_access s collection fun t => ?_
  split
  · rfl
  · rfl

theorem core_update (s : Store) (collection : String) (criteria fields : Vars) :
    (s.update collection criteria fields).2.core = s.core := by
  refine core_access s collection fun t => ?_
  split
  · rfl
  · rfl

theorem core_delete (s : Store) (collection : String) (criteria : Vars) :
    (s.delete collection criteria).2.core = s.core := by
  refine core_access s collection fun t => ?_
  split
  · rfl
  · rfl

end Store

namespace NodeRun.Apart

theorem pure {P : α → Prop} {a : α} (h : P a) : Apart P (pure a : NodeRun α) := by
  intro s
  refine ⟨Aside.refl _, fun b hb => ?_⟩
  cases hb
  exact h

theorem throw (P : α → Prop) (e : NodeError) : Apart P (throw e : NodeRun α) := by
  intro s
  refine ⟨Aside.refl _, fun b hb => ?_⟩
  cases hb

theorem bind {Q : α → Prop} {P : β → Prop} {x : NodeRun α} {f : α → NodeRun β} (hx : Apart Q x)
    (hf : ∀ a, Q a → Apart P (f a)) : Apart P (x >>= f) := by
  intro s
  obtain ⟨haside, hans⟩ := hx s
  rw [runFrom_bind]
  rcases hr : runFrom x s with ⟨r, s'⟩
  rw [hr] at haside hans
  cases r with
  | ok a =>
    obtain ⟨haside', hans'⟩ := hf a (hans a rfl) s'
    exact ⟨haside.trans haside', hans'⟩
  | error e => exact ⟨haside, fun b hb => by cases hb⟩

theorem onWorld {f : StateM World α} (h : ∀ w, Aside w (f.run w).2) :
    Apart Unconditional (onWorld f) :=
  fun s => ⟨h s.world, fun _ _ => trivial⟩

end NodeRun.Apart

end Workflows
