import Mathlib.Algebra.BigOperators.Intervals
import Mathlib.Algebra.BigOperators.Ring.Finset
import Workflows.Proofs.Engine.Recursion

/-!
# How many nodes a start can run

A walk runs at most as many nodes as its budget allows, and each of them may start a child, one
level deeper, with a walk of its own.

* `World.nodesStarted`   how many nodes have been announced
* `RunsAtMost`           a computation that announces at most so many nodes

With a budget of `b` and `m` levels left a start announces at most `b + b ^ 2 + … + b ^ m` nodes,
those of all children included (`start_runsAtMost`).
-/

namespace Workflows

def Happening.isNodeStarted : Happening → Bool
  | .nodeStarted .. => true
  | _ => false

namespace World

def nodesStarted (w : World) : Nat := w.events.toList.countP (·.happening.isNodeStarted)

variable {w w' : World} {sort : Happening → Bool}

/-- events of a sort that has no starts of nodes do not count -/
theorem Tells.nodesStarted (h : Tells sort w w')
    (hsort : ∀ x, sort x = true → x.isNodeStarted = false) : w'.nodesStarted = w.nodesStarted := by
  obtain ⟨es, hes, hall⟩ := h
  have hnone : es.countP (·.happening.isNodeStarted) = 0 := by
    rw [List.countP_eq_zero]
    intro e he hstart
    rw [hsort _ (hall e he)] at hstart
    cases hstart
  unfold World.nodesStarted
  rw [hes, List.countP_append, hnone, Nat.add_zero]

theorem nodesStarted_of_events (h : w'.events = w.events) : w'.nodesStarted = w.nodesStarted := by
  rw [World.nodesStarted, World.nodesStarted, h]

theorem nodesStarted_emit_of_not (env : Env) (id : String) {h : Happening}
    (hh : h.isNodeStarted = false) (w : World) :
    ((env.emit id h).run w).2.nodesStarted = w.nodesStarted := by
  have htells : Tells (fun x => !x.isNodeStarted) w ((env.emit id h).run w).2 :=
    Tells.emit env id (by rw [hh]; rfl) w
  exact htells.nodesStarted fun x hx => by simpa using hx

theorem nodesStarted_emit_le (env : Env) (id : String) (h : Happening) (w : World) :
    ((env.emit id h).run w).2.nodesStarted ≤ w.nodesStarted + 1 := by
  show (w.events.push _).toList.countP _ ≤ w.events.toList.countP _ + 1
  rw [Array.toList_push, List.countP_append]
  exact Nat.add_le_add_left List.countP_le_length _

end World

theorem Aside.nodesStarted {w w' : World} (h : Aside w w') : w'.nodesStarted = w.nodesStarted := by
  refine h.events.nodesStarted fun x hx => ?_
  cases x <;> first | rfl | cases hx

namespace Engine

/-- A computation that announces at most `k` nodes. -/
def RunsAtMost {α : Type} (k : Nat) (x : Run EngineError α) : Prop :=
  ∀ w, (runFrom x w).2.nodesStarted ≤ w.nodesStarted + k

namespace RunsAtMost
variable {α β : Type} {k l : Nat}

theorem bind {x : Run EngineError α} {f : α → Run EngineError β} (hx : RunsAtMost k x)
    (hf : ∀ a, RunsAtMost l (f a)) : RunsAtMost (k + l) (x >>= f) := by
  intro w
  have hfirst := hx w
  rw [runFrom_bind]
  rcases hr : runFrom x w with ⟨r, v⟩
  rw [hr] at hfirst
  cases r with
  | ok a =>
    have hrest := hf a v
    calc (runFrom (f a) v).2.nodesStarted ≤ v.nodesStarted + l := hrest
      _ ≤ w.nodesStarted + k + l := Nat.add_le_add_right hfirst l
      _ = w.nodesStarted + (k + l) := Nat.add_assoc _ _ _
  | error e => exact Nat.le_trans hfirst (Nat.add_le_add_left (Nat.le_add_right k l) _)

theorem mono {x : Run EngineError α} (hx : RunsAtMost k x) (h : k ≤ l) : RunsAtMost l x :=
  fun w => Nat.le_trans (hx w) (Nat.add_le_add_left h _)

/-- behind a step that announces no node -/
theorem after {x : Run EngineError α} {f : α → Run EngineError β} (hx : RunsAtMost 0 x)
    (hf : ∀ a, RunsAtMost k (f a)) : RunsAtMost k (x >>= f) :=
  (hx.bind hf).mono (Nat.le_of_eq (Nat.zero_add k))

theorem pure (a : α) : RunsAtMost k (pure a : Run EngineError α) :=
  fun w => Nat.le_add_right w.nodesStarted k

theorem throw (e : EngineError) : RunsAtMost k (throw e : Run EngineError α) :=
  fun w => Nat.le_add_right w.nodesStarted k

theorem lift {f : StateM World α} (h : ∀ w, (f.run w).2.nodesStarted ≤ w.nodesStarted + k) :
    RunsAtMost k (liftM f : Run EngineError α) := h

theorem quiet {f : StateM World α} (h : ∀ w, (f.run w).2.events = w.events) :
    RunsAtMost 0 (liftM f : Run EngineError α) :=
  lift fun w => Nat.le_of_eq (World.nodesStarted_of_events (h w))

theorem now (env : Env) : RunsAtMost 0 (liftM env.now : Run EngineError Instant) :=
  quiet fun _ => rfl

theorem fromStore (f : Store → α) : RunsAtMost 0 (Run.fromStore f : Run EngineError α) :=
  quiet fun _ => rfl

theorem emit (env : Env) (id : String) {h : Happening} (hh : h.isNodeStarted = false) :
    RunsAtMost 0 (liftM (env.emit id h) : Run EngineError Unit) :=
  lift fun w => Nat.le_of_eq (World.nodesStarted_emit_of_not env id hh w)

theorem locked {x : Run EngineError α} (hx : RunsAtMost k x) (id : String) :
    RunsAtMost k (Run.locked id x) := by
  intro w
  rw [runFrom_locked]
  exact hx (w.locked id)

end RunsAtMost

/-! ## writing -/

section
variable (env : Env) (i : Instance)

theorem persist_runsAtMost : RunsAtMost 0 (persist env i) := by
  intro w
  refine Nat.le_of_eq (World.nodesStarted_of_events ?_)
  rw [runFrom_persist_eq]
  split <;> rfl

theorem persistStatus_runsAtMost : RunsAtMost 0 (persistStatus env i) :=
  (persist_runsAtMost env i).after fun j => (RunsAtMost.emit env j.id rfl).after fun _ =>
    .pure j

theorem enterStatus_runsAtMost (status : InstanceStatus) :
    RunsAtMost 0 (enterStatus env i status) :=
  (RunsAtMost.now env).after fun _ => persistStatus_runsAtMost env _

theorem failInstance_runsAtMost (error : String) : RunsAtMost 0 (failInstance env i error) :=
  (RunsAtMost.now env).after fun _ => persistStatus_runsAtMost env _

theorem park_runsAtMost (o : Outcome) : RunsAtMost 0 (park env i o) :=
  (RunsAtMost.now env).after fun _ => persistStatus_runsAtMost env _

theorem applyChild_runsAtMost (n : Node) (child : Instance) (link : ChildLink) :
    RunsAtMost 0 (applyChild env i n child link) := by
  unfold applyChild
  dsimp only
  split
  · exact .pure _
  · exact (failInstance_runsAtMost env _ _).after fun _ => .pure _

theorem reconcile_runsAtMost (n : Node) (o : Outcome) : RunsAtMost 0 (reconcile env i n o) := by
  refine (RunsAtMost.fromStore _).after fun found => ?_
  cases found with
  | none => exact .pure _
  | some found =>
    refine (applyChild_runsAtMost env i n found.1 found.2).after fun progress => ?_
    cases progress with
    | goesOn j => exact (persist_runsAtMost env j).after fun _ => .pure _
    | stopped j => exact .pure _

theorem afterNode_runsAtMost (d : Definition) (n : Node) (o : Outcome) :
    RunsAtMost 0 (afterNode env d i n o) := by
  have hpark : RunsAtMost 0 (do return .stop (← park env i o) : Run EngineError Next) :=
    (park_runsAtMost env i o).after fun _ => .pure _
  unfold afterNode
  split
  · split <;> exact .pure _
  · split <;> exact .pure _
  · split <;> exact .pure _
  · split
    · refine (reconcile_runsAtMost env i n o).after fun progress => ?_
      rcases progress with _ | (j | j)
      · exact hpark
      · exact .pure _
      · exact .pure _
    · exact hpark
  · exact (failInstance_runsAtMost env i _).after fun _ => .pure _

end

/-! ## walks -/

variable {env : Env} {launcher : Launcher} {k : Nat}

/-- A node starts one child at most, its repetitions included. -/
theorem ran_nodesStarted_le (hl : ∀ r, RunsAtMost k (launcher r)) {i : Instance} {n : Node}
    {o : Outcome} {w w' : World} (h : Node.Ran (contextOf env launcher i) n w o w') :
    w'.nodesStarted ≤ w.nodesStarted + k := by
  cases h with
  | apart h =>
    rw [h.nodesStarted]
    exact Nat.le_add_right _ _
  | @refused _ _ r v _ e _ hc h _ hrun =>
    cases hc
    have hchild := hl r v
    rw [hrun, h.nodesStarted] at hchild
    exact hchild
  | @launched _ _ r v v' _ l _ hc h _ hrun _ h' =>
    cases hc
    have hchild := hl r v
    rw [hrun, h.nodesStarted] at hchild
    rw [h'.nodesStarted]
    exact hchild

theorem Outcome.happening_isNodeStarted (o : Outcome) (nodeId : String) :
    (o.happening nodeId).isNodeStarted = false := by
  unfold Outcome.happening
  split <;> rfl

theorem runNode_runsAtMost (hl : ∀ r, RunsAtMost k (launcher r)) (i : Instance) (n : Node) :
    RunsAtMost (1 + k) (runNode env launcher i n) := by
  have hsession : ∀ (j : Instance), RunsAtMost k (inSession env j.vars
      (n.runWithRetries (contextOf env launcher j)) : Run EngineError (Outcome × Vars)) := by
    intro j w
    rw [runFrom_inSession]
    exact ran_nodesStarted_le hl (Node.runWithRetries_ran _ n (sessionOf env j.vars w))
  unfold runNode
  refine (RunsAtMost.lift (World.nodesStarted_emit_le env _ _)).bind fun _ => ?_
  refine (RunsAtMost.now env).after fun startedAt => ?_
  refine ((hsession _).bind (l := 0) fun x => ?_).mono (Nat.le_refl k)
  refine (RunsAtMost.now env).after fun completedAt => ?_
  refine (RunsAtMost.emit env _ (Outcome.happening_isNodeStarted _ _)).after fun _ => ?_
  exact (persist_runsAtMost env _).after fun _ => .pure _

/-- A walk announces a node in each of its steps, and those of the child that the node starts. -/
theorem walk_runsAtMost (hl : ∀ r, RunsAtMost k (launcher r)) (d : Definition) (steps : Nat)
    (pending : List String) (i : Instance) :
    RunsAtMost (steps * (1 + k)) (walk env launcher d steps pending i) := by
  induction steps generalizing pending i with
  | zero =>
    rw [Nat.zero_mul]
    cases pending with
    | nil => exact enterStatus_runsAtMost env i .completed
    | cons id pending =>
      unfold walk
      split
      · exact failInstance_runsAtMost env i _
      · exact failInstance_runsAtMost env i _
  | succ steps ih =>
    cases pending with
    | nil => exact (enterStatus_runsAtMost env i .completed).mono (Nat.zero_le _)
    | cons id pending =>
      unfold walk
      split
      · exact (failInstance_runsAtMost env i _).mono (Nat.zero_le _)
      · next n _ =>
        rw [Nat.succ_mul, Nat.add_comm]
        refine (runNode_runsAtMost hl i n).bind fun x => ?_
        refine (afterNode_runsAtMost env x.2 d n x.1).after fun next => ?_
        cases next with
        | visit targets j => exact ih _ j
        | stop j => exact .pure j

/-! ## starts -/

theorem startWith_runsAtMost (hl : ∀ r, RunsAtMost k (launcher r)) (r : StartRequest) :
    RunsAtMost (env.settings.maxStepsPerTraversal * (1 + k)) (startWith env launcher r) := by
  unfold startWith
  split
  · exact .throw _
  · refine (RunsAtMost.fromStore _).after fun selected => ?_
    cases selected with
    | none => exact .throw _
    | some selected =>
      refine (RunsAtMost.quiet fun _ => rfl).after fun id => ?_
      refine (RunsAtMost.quiet fun _ => rfl).after fun _ => ?_
      refine (RunsAtMost.now env).after fun time => ?_
      refine (RunsAtMost.bind (l := 0) (.locked ?_ id) fun _ => .pure id).mono (Nat.le_refl _)
      refine (RunsAtMost.quiet fun _ => rfl).after fun _ => ?_
      refine (RunsAtMost.emit env id rfl).after fun _ => ?_
      split
      · exact walk_runsAtMost hl _ _ _ _
      · exact (failInstance_runsAtMost env _ _).mono (Nat.zero_le _)

theorem sum_pow_succ (b levels : Nat) : ∑ k ∈ Finset.range (levels + 1), b ^ (k + 1) =
    b * (1 + ∑ k ∈ Finset.range levels, b ^ (k + 1)) := by
  rw [Finset.sum_range_succ', Nat.mul_add, Finset.mul_sum, Nat.add_comm]
  congr 1
  · rw [Nat.zero_add, pow_one, Nat.mul_one]
  · exact Finset.sum_congr rfl fun k _ => pow_succ' b (k + 1)

/-- The induction is on the levels: a walk has room for one child in each of its steps. -/
theorem startWithin_runsAtMost (levels : Nat) (r : StartRequest) :
    RunsAtMost (∑ k ∈ Finset.range levels, env.settings.maxStepsPerTraversal ^ (k + 1))
      (startWithin env levels r) := by
  induction levels generalizing r with
  | zero => exact .throw _
  | succ levels ih =>
    rw [sum_pow_succ]
    exact startWith_runsAtMost ih r

/-- **Every start comes to an end, after a bounded number of nodes.**  The recursion of starting
is well founded: the engine follows it, and no other launcher does.  With its children a start
announces at most `b + b ^ 2 + … + b ^ m` nodes, where `b` is the budget of a walk and `m` counts
the levels from that of the request to the last one. -/
theorem start_bounded (env : Env) :
    Follows env (start env) ∧
      (∀ launcher, Follows env launcher → ∀ r w, Fresh env.idName w →
        runFrom (launcher r) w = runFrom (start env r) w) ∧
      ∀ r w, (runFrom (start env r) w).2.nodesStarted ≤ w.nodesStarted +
        ∑ k ∈ Finset.range (env.settings.maxNestingLevel + 1 - r.nestingLevel),
          env.settings.maxStepsPerTraversal ^ (k + 1) :=
  ⟨follows_start env, fun _ h r _ hf => h.eq_start r hf, fun r w => startWithin_runsAtMost _ r w⟩

/-- a parent and its child: two nodes of each are announced -/
theorem start_bounded_parent :
    runFrom (startTelling Sample.env (start Sample.env) (.of "parent")) Sample.world =
        runFrom (start Sample.env (.of "parent")) Sample.world ∧
      (runFrom (start Sample.env (.of "parent")) Sample.world).2.nodesStarted = 4 ∧
      (runFrom (start Sample.env (.of "parent")) Sample.world).2.nodesStarted ≤
        ∑ k ∈ Finset.range 6, 1000 ^ (k + 1) := by
  refine ⟨?_, by decide +kernel, ?_⟩
  · exact (start_bounded Sample.env).2.1 _ (follows_startTelling Sample.env) _ _ Sample.fresh
  · exact ((start_bounded Sample.env).2.2 (.of "parent") Sample.world).trans (by decide)

end Engine
end Workflows
