import Workflows.Engine.Walk

/-!
# Walks as depth-first recursion

`Engine.walk` keeps its pending ids in one list.  Here the same walk is written as a recursion over
the graph: a node is run, and then each of its targets is visited with everything behind it before
the next one.

* `Visit`               what is left of a walk behind a part of it
* `visit`, `visitAll`   a node, or some nodes in turn, with everything behind them
* `depthFirst`          the recursive walk

The steps are shared by all branches, so a visit hands on how many it has left.  Main statement:
both walks are one computation (`walkFrom_eq_depthFirst`).
-/

namespace Workflows.Engine
variable (env : Env) (launcher : Launcher)

/-! ### the recursion -/

/-- What is left of a walk that may still run `steps` nodes, behind a part of it. -/
inductive Visit (steps : Nat) where
  /-- the part is over, and so many steps are left -/
  | ended (left : Nat) (h : left ≤ steps) (i : Instance)
  /-- the whole walk is over -/
  | halted (i : Instance)

/-- a visit of a walk that may run more nodes -/
def Visit.weaken {a b : Nat} (h : a ≤ b) : Visit a → Visit b
  | .ended left ha i => .ended left (Nat.le_trans ha h) i
  | .halted i => .halted i

/-- what a subprocess node has to take over from a child that has finished already -/
def earlyChild (i : Instance) (n : Node) (o : Outcome) : Run EngineError (Option Progress) :=
  if n.kind = .subprocess then reconcile env i n o else return none

mutual

/-- run a node and visit what comes after it -/
def visit (d : Definition) (steps : Nat) (id : String) (i : Instance) :
    Run EngineError (Visit steps) :=
  match d.findNode? id with
  | none => return .halted (← failInstance env i (WorkflowError.nodeNotFound id).message)
  | some n => match steps with
    | 0 =>
      return .halted (← failInstance env i (budgetError env.settings.maxStepsPerTraversal n.id))
    | steps + 1 => do
      let (o, i) ← runNode env launcher i n
      match o.status with
      | .completed | .breakLoop | .continueLoop =>
        if n.kind = .finish then return .ended steps (Nat.le_succ steps) i
        else return (← visitAll d steps (d.nextNodes n o.route) i).weaken (Nat.le_succ steps)
      | .waiting => match ← earlyChild env i n o with
        | some (.goesOn i) =>
          return (← visitAll d steps (d.nextNodes n none) i).weaken (Nat.le_succ steps)
        | some (.stopped i) => return .halted i
        | none => return .halted (← park env i o)
      | .failed =>
        return .halted (← failInstance env i (o.error.getD ("Node " ++ n.id ++ " failed")))
termination_by (steps, 0)

/-- visit nodes in turn -/
def visitAll (d : Definition) (steps : Nat) : List String → Instance → Run EngineError (Visit steps)
  | [], i => return .ended steps (Nat.le_refl steps) i
  | id :: ids, i => do
    match ← visit d steps id i with
    | .ended left h i => return (← visitAll d left ids i).weaken h
    | .halted i => return .halted i
termination_by ids => (steps, ids.length + 1)
decreasing_by
  · exact Prod.Lex.right _ (by simp)
  · rcases Nat.lt_or_eq_of_le h with hlt | rfl
    · exact Prod.Lex.left _ _ hlt
    · exact Prod.Lex.right _ (by simp)

end

/-- The recursive walk from some nodes.  An instance that is not halted on the way is completed. -/
def depthFirst (d : Definition) (ids : List String) (i : Instance) : Run EngineError Instance := do
  match ← visitAll env launcher d env.settings.maxStepsPerTraversal ids i with
  | .ended _ _ i => enterStatus env i .completed
  | .halted i => return i

/-! ### both walks are the same -/

variable {env launcher}

/-- the rest of a walk behind a visit -/
def Visit.andThen {steps : Nat} (rest : Nat → Instance → Run EngineError Instance) :
    Visit steps → Run EngineError Instance
  | .ended left _ i => rest left i
  | .halted i => return i

theorem Visit.andThen_weaken {a b : Nat} (h : a ≤ b)
    (rest : Nat → Instance → Run EngineError Instance)
    (v : Visit a) : (v.weaken h).andThen rest = v.andThen rest := by
  cases v with
  | ended left ha i => rfl
  | halted i => rfl

/-- a visit that was weakened goes on as before -/
theorem bind_weaken_andThen {a b : Nat} (h : a ≤ b)
    (rest : Nat → Instance → Run EngineError Instance) (x : Run EngineError (Visit a)) :
    (do return (← x).weaken h : Run EngineError (Visit b)) >>= Visit.andThen rest =
      x >>= Visit.andThen rest := by
  rw [bind_assoc]
  congr 1
  funext v
  rw [pure_bind, Visit.andThen_weaken]

theorem bind_halted_andThen {steps : Nat} (rest : Nat → Instance → Run EngineError Instance)
    (x : Run EngineError Instance) :
    (do return .halted (← x) : Run EngineError (Visit steps)) >>= Visit.andThen rest = x := by
  rw [bind_assoc]
  simp only [pure_bind, Visit.andThen, bind_pure]

/-- that the walk from `ids ++ pending` is a visit of `ids` and then the walk from `pending` -/
def WalksApart (env : Env) (launcher : Launcher) (d : Definition) (steps : Nat) : Prop :=
  ∀ (ids pending : List String) (i : Instance),
    walk env launcher d steps (ids ++ pending) i =
      visitAll env launcher d steps ids i >>=
        Visit.andThen fun left j => walk env launcher d left pending j

/-- the targets of a node are visited before the pending nodes -/
theorem WalksApart.targets {d : Definition} {steps : Nat} (h : WalksApart env launcher d steps)
    (targets pending : List String) (i : Instance) :
    walk env launcher d steps (targets ++ pending) i =
      (do return (← visitAll env launcher d steps targets i).weaken (Nat.le_succ steps)) >>=
        Visit.andThen fun left j => walk env launcher d left pending j := by
  rw [bind_weaken_andThen]
  exact h targets pending i

theorem walk_of_missing {d : Definition} {id : String} (hn : d.findNode? id = none) (steps : Nat)
    (pending : List String) (i : Instance) :
    walk env launcher d steps (id :: pending) i =
      failInstance env i (WorkflowError.nodeNotFound id).message := by
  cases steps with
  | zero => simp only [walk, hn]
  | succ steps => simp only [walk, hn]

/-- what a walk does behind a node that is done -/
theorem walk_done {d : Definition} {steps : Nat} (h : WalksApart env launcher d steps) (n : Node)
    (route : Option String) (pending : List String) (i : Instance) :
    (do
      match ← (if n.kind = .finish then return .visit [] i
        else return .visit (d.nextNodes n route) i : Run EngineError Next) with
      | .visit targets i => walk env launcher d steps (targets ++ pending) i
      | .stop i => return i) =
    (if n.kind = .finish then return .ended steps (Nat.le_succ steps) i
      else do
        let v ← visitAll env launcher d steps (d.nextNodes n route) i
        return v.weaken (Nat.le_succ steps) : Run EngineError (Visit (steps + 1))) >>=
      Visit.andThen fun left j => walk env launcher d left pending j := by
  by_cases hk : n.kind = .finish
  · rw [if_pos hk, if_pos hk, pure_bind, pure_bind]
    rfl
  · rw [if_neg hk, if_neg hk, pure_bind]
    exact h.targets (d.nextNodes n route) pending i

/-- what a walk does behind a subprocess node that may have a finished child -/
theorem walk_waiting {d : Definition} {steps : Nat} (h : WalksApart env launcher d steps) (n : Node)
    (o : Outcome) (ho : o.status = .waiting) (pending : List String) (i : Instance) :
    (do
      match ← afterNode env d i n o with
      | .visit targets i => walk env launcher d steps (targets ++ pending) i
      | .stop i => return i) =
    (do
      match ← earlyChild env i n o with
      | some (.goesOn i) =>
        return (← visitAll env launcher d steps (d.nextNodes n none) i).weaken (Nat.le_succ steps)
      | some (.stopped i) => return .halted i
      | none => return .halted (← park env i o) : Run EngineError (Visit (steps + 1))) >>=
      Visit.andThen fun left j => walk env launcher d left pending j := by
  by_cases hk : n.kind = .subprocess
  · simp only [afterNode, ho, earlyChild, if_pos hk, bind_assoc]
    congr 1
    funext progress
    rcases progress with _ | (j | j)
    · simp only [bind_assoc, pure_bind, Visit.andThen]
    · simp only [pure_bind]
      exact h.targets (d.nextNodes n none) pending j
    · simp only [pure_bind, Visit.andThen]
  · simp only [afterNode, ho, earlyChild, if_neg hk, bind_assoc, pure_bind, Visit.andThen]

/-- One step of the walk is a visit of its first node, if the walks with fewer steps can be taken
apart. -/
theorem walk_cons {d : Definition} {steps : Nat} (h : ∀ s < steps, WalksApart env launcher d s)
    (id : String) (pending : List String) (i : Instance) :
    walk env launcher d steps (id :: pending) i =
      visit env launcher d steps id i >>=
        Visit.andThen fun left j => walk env launcher d left pending j := by
  cases hn : d.findNode? id with
  | none =>
    rw [walk_of_missing hn]
    cases steps with
    | zero => simp only [visit, hn, bind_halted_andThen]
    | succ steps => simp only [visit, hn, bind_halted_andThen]
  | some n => cases steps with
    | zero => simp only [walk, visit, hn, bind_halted_andThen]
    | succ steps =>
      have hs := h steps (Nat.lt_succ_self steps)
      simp only [walk, visit, hn, bind_assoc]
      congr 1
      funext x
      obtain ⟨o, j⟩ := x
      simp only
      cases ho : o.status with
      | completed =>
        simp only [afterNode, ho]
        exact walk_done hs n o.route pending j
      | breakLoop =>
        simp only [afterNode, ho]
        exact walk_done hs n o.route pending j
      | continueLoop =>
        simp only [afterNode, ho]
        exact walk_done hs n o.route pending j
      | waiting => exact walk_waiting hs n o ho pending j
      | failed =>
        simp only [afterNode, ho, bind_halted_andThen]
        simp only [bind_assoc, pure_bind, bind_pure]

/-- Every walk can be taken apart.  The induction is on the steps that are left; within them, on the
ids, since a visit of no nodes uses no step. -/
theorem walksApart (d : Definition) (steps : Nat) : WalksApart env launcher d steps := by
  induction steps using Nat.strongRecOn with
  | ind steps ih =>
    intro ids
    induction ids with
    | nil =>
      intro pending i
      rw [List.nil_append, visitAll, pure_bind]
      rfl
    | cons id ids ihids =>
      intro pending i
      rw [List.cons_append, walk_cons ih, visitAll, bind_assoc]
      congr 1
      funext v
      cases v with
      | halted j => simp only [pure_bind, Visit.andThen]
      | ended left hle j =>
        simp only [Visit.andThen]
        rw [bind_weaken_andThen]
        rcases Nat.lt_or_eq_of_le hle with hlt | rfl
        · exact ih left hlt ids pending j
        · exact ihids pending j

/-- **The walk with a list of pending ids is the depth-first recursion**: both run the same nodes in
the same order, answer with the same record, and leave the same world. -/
theorem walkFrom_eq_depthFirst (d : Definition) (ids : List String) (i : Instance) :
    walkFrom env launcher d ids i = depthFirst env launcher d ids i := by
  have hall : WalksApart env launcher d env.settings.maxStepsPerTraversal := walksApart d _
  have h := hall ids [] i
  rw [List.append_nil] at h
  rw [walkFrom, h, depthFirst]
  congr 1
  funext v
  cases v with
  | ended left hle j =>
    simp only [Visit.andThen]
    cases left with
    | zero => rw [walk]
    | succ left => rw [walk]
  | halted j => rfl

end Workflows.Engine
