import Workflows.Proofs.Engine.Recursion
import Workflows.Proofs.Engine.Status
import Workflows.Proofs.Node.Traceless

/-!
# Writes that are refused, operations that fail

The store refuses to write a record whose version is not the stored one.  While an instance is held
in memory its children are walked to their ends, and each of them may tell its parents; none of them
writes a record that is held, so no write is refused.

* `World.refusals`   the writes that were refused, noted by every write (`persist_refusals`)

Main statements: a single operation meets the stored version in each of its writes
(`no_write_refused`); a start, a hold or a single step that fails has not changed the store
(`failed_leaves_store`), and neither has a node that fails (`failed_node_untouched`).
-/

namespace Workflows

theorem Store.updateInstance_eq_error {s : Store} {i : Instance}
    (h : ¬ ∃ stored, s.getInstance? i.id = some stored ∧ stored.version = i.version) :
    ∃ e, s.updateInstance i = .error e := by
  unfold updateInstance
  cases hs : s.getInstance? i.id with
  | none => exact ⟨_, rfl⟩
  | some stored =>
    simp only
    rw [if_neg fun hv => h ⟨stored, hs, hv⟩]
    exact ⟨_, rfl⟩

namespace Engine
variable {names : Nat → String} {maxLevel : Nat} {env : Env} {w w' : World} {op : Operation}
  {result : Except EngineError Unit} {i : Instance}

/-! ## refused writes -/

/-- A write is refused, and noted, exactly where the version is not the stored one. -/
theorem persist_refusals (env : Env) (i : Instance) (w : World) :
    (runFrom (persist env i) w).2.refusals = w.refusals ↔
      ∃ stored, w.store.getInstance? i.id = some stored ∧ stored.version = i.version := by
  constructor
  · intro h
    refine Classical.byContradiction fun hmiss => ?_
    obtain ⟨e, he⟩ :=
      Store.updateInstance_eq_error (i := { i with updatedAt := env.time w }) hmiss
    rw [runFrom_persist_eq, he] at h
    have hsize := congrArg Array.size h
    rw [Array.size_push] at hsize
    exact Nat.succ_ne_self _ hsize
  · rintro ⟨stored, hs, hv⟩
    rw [runFrom_persist env hs hv]
    rfl

theorem Writes.refusals (h : Writes names maxLevel w w') : w'.refusals = w.refusals := by
  cases h with
  | quiet h => exact h.refusals
  | create => rfl
  | link => rfl
  | record _ _ _ _ hr => exact hr

theorem Performed.refusals (h : Performed names maxLevel w op result w') :
    w'.refusals = w.refusals :=
  h.induct (P := fun v => v.refusals = w.refusals) rfl fun hw hv => hw.refusals.trans hv

theorem Climb.error_isStorage {fuel : Nat} {e : EngineError}
    (h : Climb names maxLevel fuel i w (.error e) w') : e.isStorage = false := by
  generalize hr : Except.error e = result at h
  induction h with
  | exhausted => cases hr
  | ended => cases hr
  | refused _ _ _ he =>
    cases hr
    exact he
  | up _ _ _ _ ih => exact ih hr

theorem Performed.error_isStorage {e : EngineError}
    (h : Performed names maxLevel w op (.error e) w') : e.isStorage = false := by
  cases h with
  | refused _ he => exact he
  | resumed _ _ hc => exact hc.error_isStorage
  | cancelled _ _ hc => exact hc.error_isStorage

/-- **No write of an operation is refused.**  Each of them meets the version that is stored, in the
walks of children and the chain of parents too, and none fails with an error of the store. -/
theorem no_write_refused (env : Env) (w : World) (hk : w.store.Keyed) (hf : Fresh env.idName w)
    (op : Operation) : (runFrom (op.run env) w).2.refusals = w.refusals ∧
      ∀ e, (runFrom (op.run env) w).1 ≠ .error (.storage e) := by
  have hperformed := run_performed ⟨hf, hk⟩ op
  refine ⟨hperformed.refusals, fun e he => ?_⟩
  rw [he] at hperformed
  exact Bool.noConfusion hperformed.error_isStorage

theorem Sample.called : Orderly Sample.env.idName (after Sample.env Sample.world Sample.calls) :=
  after_orderly Sample.calls (orderly_of_empty rfl Sample.fresh)

/-- a chain of two: the child ends, and its parent goes on -/
theorem no_write_refused_resume :
    (runFrom ((Operation.resume "ii" "work" none).run Sample.env)
        (after Sample.env Sample.world Sample.calls)).2.refusals =
        (after Sample.env Sample.world Sample.calls).refusals ∧
      ((runFrom ((Operation.resume "ii" "work" none).run Sample.env)
        (after Sample.env Sample.world Sample.calls)).2.store.getInstance? "i").any
          (·.status.isTerminal) = true := by
  have ho := Sample.called
  exact ⟨(no_write_refused Sample.env _ ho.keyed ho.fresh _).1, by decide +kernel⟩

/-! ## operations that fail -/

theorem runFrom_void_error {α : Type} {x : Run EngineError α} {e : EngineError}
    (h : (runFrom x w).1 = .error e) :
    runFrom (do let _ ← x) w = (.error e, (runFrom x w).2) :=
  runFrom_bind_error (Prod.ext h rfl) _

/-- an operation that tells no parent of the end of its instance -/
def Operation.tellsNobody : Operation → Bool
  | .start _ | .pause _ | .step _ _ => true
  | .resume .. | .cancel _ => false

/-- An error of such an operation comes before its first write. -/
theorem Performed.store_of_error {e : EngineError}
    (h : Performed names maxLevel w op (.error e) w') (hop : op.tellsNobody = true) :
    w'.store = w.store := by
  cases h with
  | refused hidle => exact hidle.store
  | resumed => cases hop
  | cancelled => cases hop

/-- **An operation that fails has not changed the store**, nor have the children that it started:
there is no error behind the first write.  That holds of a start with the report at its end too. -/
theorem failed_leaves_store (env : Env) (w : World) (hk : w.store.Keyed)
    (hf : Fresh env.idName w) :
    (∀ r e, (runFrom (start env r) w).1 = .error e →
        (runFrom (start env r) w).2.store = w.store) ∧
      (∀ r, runFrom (startTelling env (start env) r) w = runFrom (start env r) w) ∧
      (∀ id e, (runFrom (pause env id) w).1 = .error e →
        (runFrom (pause env id) w).2.store = w.store) ∧
      ∀ id nodeId e, (runFrom (stepNode env id nodeId) w).1 = .error e →
        (runFrom (stepNode env id nodeId) w).2.store = w.store := by
  refine ⟨fun r e he => ?_, fun r => (follows_start env r w hf).symm, fun id e he => ?_,
    fun id nodeId e he => ?_⟩
  · have hperformed := run_performed ⟨hf, hk⟩ (.start r)
    rw [Operation.run, runFrom_void_error he] at hperformed
    exact hperformed.store_of_error rfl
  · have hperformed := run_performed ⟨hf, hk⟩ (.pause id)
    rw [Operation.run, he] at hperformed
    exact hperformed.store_of_error rfl
  · have hperformed := run_performed ⟨hf, hk⟩ (.step id nodeId)
    rw [Operation.run, runFrom_void_error he] at hperformed
    exact hperformed.store_of_error rfl

/-- an instance that waits, and none of its nodes is asked for -/
theorem failed_leaves_store_step :
    (runFrom (stepNode Sample.env "i" "nowhere")
        (after Sample.env Sample.world Sample.calls)).1.isOk = false ∧
      (runFrom (stepNode Sample.env "i" "nowhere")
        (after Sample.env Sample.world Sample.calls)).2.store =
        (after Sample.env Sample.world Sample.calls).store := by
  have hfails : (runFrom (stepNode Sample.env "i" "nowhere")
      (after Sample.env Sample.world Sample.calls)).1.isOk = false := by
    decide +kernel
  cases hr : (runFrom (stepNode Sample.env "i" "nowhere")
      (after Sample.env Sample.world Sample.calls)).1 with
  | ok report =>
    rw [hr] at hfails
    cases hfails
  | error e =>
    exact ⟨rfl, (failed_leaves_store Sample.env _ Sample.called.keyed Sample.called.fresh).2.2.2
      "i" "nowhere" e hr⟩

/-! ## nodes that fail -/

theorem start_refusesCleanly (env : Env) : Node.RefusesCleanly env.idName (start env) := by
  intro r w e w' hf hrun
  exact start_starts.of_error (.of_fresh hf) hrun

/-- **A node that fails in the engine leaves no trace**, whatever it is and whatever fails: the
variables, the open loops and the contents of the store are the same.  A node that is run again ends
as if its failed attempts had not been made. -/
theorem failed_node_untouched (c : NodeContext) (n : Node) (s : Session)
    (hl : c.launcher = some (start c.env))
    (hf : n.kind = .subprocess → Fresh c.env.idName s.world) :
    (((n.execute c).run s).1.status = .failed → Untouched s ((n.execute c).run s).2) ∧
      Node.LastAttempt c n s ((n.runWithRetries c).run s) :=
  ⟨Node.execute_untouched ⟨hf, fun _ => ⟨_, hl, start_refusesCleanly c.env⟩⟩,
    Node.runWithRetries_lastAttempt c n s⟩

namespace Sample

def context : NodeContext := ⟨Sample.env, "i", 0, some (start Sample.env)⟩

def session : Session := ⟨[("count", .int 1)], { maxDepth := 3 }, world, #[]⟩

/-- a subprocess that has no definition -/
def lost : Node := ⟨"work", .subprocess, none, .obj [("workflow_id", .str "nowhere")]⟩

end Sample

theorem failed_node_untouched_lost :
    ((Sample.lost.execute Sample.context).run Sample.session).1.status = .failed ∧
      Untouched Sample.session ((Sample.lost.execute Sample.context).run Sample.session).2 := by
  have hfails : ((Sample.lost.execute Sample.context).run Sample.session).1.status = .failed := by
    decide +kernel
  have hspared := failed_node_untouched Sample.context Sample.lost Sample.session rfl
    fun _ => Sample.fresh
  exact ⟨hfails, hspared.1 hfails⟩

end Engine
end Workflows
