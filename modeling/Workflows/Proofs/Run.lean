import Workflows.Node.Session
import Workflows.World

/-!
# Runs

An operation that may fail is run from a state; the answer is its result and the state after it.
The lemmas take a run apart into the runs of its parts.
-/

namespace Workflows
variable {ε σ α β : Type}

/-- the result of an operation from a state, and the state after it -/
def runFrom (x : ExceptT ε (StateM σ) α) (s : σ) : Except ε α × σ := x.run.run s

theorem runFrom_get (s : σ) : runFrom (get : ExceptT ε (StateM σ) σ) s = (.ok s, s) := rfl

theorem runFrom_modify (f : σ → σ) (s : σ) :
    runFrom (modify f : ExceptT ε (StateM σ) PUnit) s = (.ok ⟨⟩, f s) := rfl

theorem runFrom_lift (f : StateM σ α) (s : σ) :
    runFrom (liftM f : ExceptT ε (StateM σ) α) s = (.ok (f.run s).1, (f.run s).2) := rfl

theorem runFrom_bind (x : ExceptT ε (StateM σ) α) (f : α → ExceptT ε (StateM σ) β) (s : σ) :
    runFrom (x >>= f) s = match runFrom x s with
      | (.ok a, s') => runFrom (f a) s'
      | (.error e, s') => (.error e, s') := by
  show (ExceptT.bindCont f (runFrom x s).1).run (runFrom x s).2 = _
  rcases runFrom x s with ⟨r, s'⟩
  cases r with
  | ok a => rfl
  | error e => rfl

theorem runFrom_bind_ok {x : ExceptT ε (StateM σ) α} {s s' : σ} {a : α}
    (h : runFrom x s = (.ok a, s'))
    (f : α → ExceptT ε (StateM σ) β) : runFrom (x >>= f) s = runFrom (f a) s' := by
  rw [runFrom_bind, h]

theorem runFrom_bind_error {x : ExceptT ε (StateM σ) α} {s s' : σ} {e : ε}
    (h : runFrom x s = (.error e, s'))
    (f : α → ExceptT ε (StateM σ) β) : runFrom (x >>= f) s = (.error e, s') := by
  rw [runFrom_bind, h]

/-- a computation that succeeds has succeeded step by step -/
theorem ok_of_runFrom_bind {x : ExceptT ε (StateM σ) α} {f : α → ExceptT ε (StateM σ) β} {b : β}
    {s s' : σ} (h : runFrom (x >>= f) s = (.ok b, s')) :
    ∃ a u, runFrom x s = (.ok a, u) ∧ runFrom (f a) u = (.ok b, s') := by
  rw [runFrom_bind] at h
  rcases hx : runFrom x s with ⟨r, u⟩
  rw [hx] at h
  cases r with
  | ok a => exact ⟨a, u, rfl, h⟩
  | error e => cases h

/-- what stands behind a step matters where the step succeeds -/
theorem runFrom_bind_congr {x : ExceptT ε (StateM σ) α} {f g : α → ExceptT ε (StateM σ) β} {s : σ}
    (h : ∀ a u, runFrom x s = (.ok a, u) → runFrom (f a) u = runFrom (g a) u) :
    runFrom (x >>= f) s = runFrom (x >>= g) s := by
  rw [runFrom_bind, runFrom_bind]
  rcases hx : runFrom x s with ⟨r, u⟩
  cases r with
  | ok a => exact h a u hx
  | error e => rfl

theorem runFrom_lift_bind (f : StateM σ α) (g : α → ExceptT ε (StateM σ) β) (s : σ) :
    runFrom (liftM f >>= g) s = runFrom (g (f.run s).1) (f.run s).2 := by
  rw [runFrom_bind_ok (runFrom_lift f s)]

theorem runFrom_fromStore_bind (f : Store → α) (g : α → Run ε β) (w : World) :
    runFrom (Run.fromStore f >>= g) w = runFrom (g (f w.store)) w := rfl

end Workflows
