import Workflows.Proofs.Engine.Operation

/-!
# The recursion of starting

A start runs nodes, a node may start a child, and an instance that has ended is reported to its
parent.  Here the recursion is written with one launcher for all children, and with the report of
the new instance at the end of its start.

* `startTelling`   a start by a launcher of children, with the report at its end
* `Follows`        a launcher that starts as the recursion says, wherever ids are fresh
* `SameBelow`      two launchers that do the same for the children of an instance

A launcher that follows the recursion is determined by it: what it does at a level depends on the
next level only, and no child is started beyond the last one (`Follows.eq_start`).  The engine
follows the recursion (`follows_start`), for nothing waits yet for an instance that is new.
-/

namespace Workflows

namespace Node
open NodeRun

/-! ## nodes under two launchers -/

section
variable {α : Type} {c : NodeContext} {n : Node} {s : Session} {launcher other : Launcher}

/-- two launchers that do the same for the children of a context -/
def SameFor (c : NodeContext) (launcher other : Launcher) : Prop :=
  ∀ r w, r.nestingLevel = c.nestingLevel + 1 → r.nestingLevel ≤ c.env.settings.maxNestingLevel →
    Fresh c.env.idName w → runFrom (launcher r) w = runFrom (other r) w

/-- what stands behind a step may assume the answer of the step and the world after it -/
theorem runFrom_bind_congr {Q : α → Prop} {β : Type} {x : NodeRun α} {f g : α → NodeRun β}
    (hx : Apart Q x) (h : ∀ a s', Q a → Aside s.world s'.world →
      runFrom (f a) s' = runFrom (g a) s') : runFrom (x >>= f) s = runFrom (x >>= g) s := by
  obtain ⟨haside, hans⟩ := hx s
  rw [runFrom_bind, runFrom_bind]
  rcases hr : runFrom x s with ⟨r, s'⟩
  rw [hr] at haside hans
  cases r with
  | ok a => exact h a s' (hans a rfl) haside
  | error e => rfl

theorem runFrom_launch_congr {r : StartRequest}
    (h : runFrom (launcher r) s.world = runFrom (other r) s.world) :
    runFrom (launch launcher r) s = runFrom (launch other r) s := by
  have hworld : runFrom (onWorld (launcher r).run) { s with launched := s.launched.push r } =
      runFrom (onWorld (other r).run) { s with launched := s.launched.push r } := by
    show (Except.ok (runFrom (launcher r) s.world).1, { s with
      launched := s.launched.push r, world := (runFrom (launcher r) s.world).2 }) = _
    rw [h]
    rfl
  unfold launch
  rw [runFrom_bind_ok (runFrom_modify _ s), runFrom_bind_ok (runFrom_modify _ s), runFrom_bind,
    runFrom_bind, hworld]

theorem runFrom_startChild_congr (h : SameFor c launcher other) (hf : Fresh c.env.idName s.world) :
    runFrom (startChild c launcher n) s = runFrom (startChild c other n) s := by
  unfold startChild
  refine runFrom_bind_congr (Made.settings (c := c) n _).apart fun settings s₁ _ h₁ => ?_
  refine runFrom_bind_congr (Made.demand (c := c) _ _).apart fun workflowId s₂ _ h₂ => ?_
  refine runFrom_bind_congr (childLevel_made c _ _).apart fun level s₃ hlevel h₃ => ?_
  refine runFrom_bind_congr (validate_made c _ _).apart fun report s₄ _ h₄ => ?_
  refine runFrom_bind_congr (warnAll_made c n _).apart fun _ s₅ _ h₅ => ?_
  split
  · refine runFrom_bind_congr (Made.vars (c := c)).apart fun vs s₆ _ h₆ => ?_
    have haside := ((((h₁.trans h₂).trans h₃).trans h₄).trans h₅).trans h₆
    rw [runFrom_bind, runFrom_bind, runFrom_launch_congr (h _ _ hlevel.1 hlevel.2
      (haside.quiet.fresh hf))]
  · rfl

end

/-! ### the launcher of a context -/

variable (c : NodeContext) (n : Node) (launcher other : Launcher)

def withLauncher (c : NodeContext) (launcher : Launcher) : NodeContext :=
  { c with launcher := some launcher }

/-! What a handler uses of its context does not depend on the launcher. -/

theorem withLauncher_now : (withLauncher c launcher).now = c.now := rfl

theorem withLauncher_freshId : (withLauncher c launcher).freshId = c.freshId := rfl

theorem withLauncher_info (m : String) : (withLauncher c launcher).info n m = c.info n m := rfl

theorem withLauncher_warn (m : String) : (withLauncher c launcher).warn n m = c.warn n m := rfl

theorem withLauncher_deadline (seconds : Float) :
    n.deadline (withLauncher c launcher) seconds = n.deadline c seconds := rfl

theorem withLauncher_instanceId : (withLauncher c launcher).instanceId = c.instanceId := rfl

theorem withLauncher_env : (withLauncher c launcher).env = c.env := rfl

theorem warnAll_withLauncher (ws : List String) :
    warnAll (withLauncher c launcher) n ws = warnAll c n ws := by
  induction ws with
  | nil => rfl
  | cons w ws ih =>
    unfold warnAll
    rw [ih, withLauncher_warn]

theorem startChild_withLauncher (l : Launcher) :
    startChild (withLauncher c launcher) l n = startChild c l n := by
  unfold startChild
  simp only [warnAll_withLauncher, withLauncher_now]
  rfl

/-- Only a subprocess node looks at the launcher. -/
theorem handle_withLauncher (hk : n.kind ≠ .subprocess) :
    n.handle (withLauncher c launcher) = n.handle c := by
  unfold handle
  cases h : n.kind with
  | subprocess => exact absurd h hk
  | task =>
    simp only [task, withLauncher_now, withLauncher_freshId, withLauncher_info,
      withLauncher_deadline, withLauncher_instanceId]
  | decision => simp only [decision, withLauncher_warn]
  | approval =>
    simp only [approval, withLauncher_now, withLauncher_freshId, withLauncher_instanceId]
  | action => simp only [action, call, withLauncher_info, withLauncher_env]
  | timer => simp only [timer, timerWait, withLauncher_freshId, withLauncher_deadline]
  | event =>
    simp only [event, emitEvent, awaitEvent, withLauncher_now, withLauncher_freshId,
      withLauncher_info, withLauncher_deadline, withLauncher_instanceId, withLauncher_env]
  | createRecord => simp only [createRecord, withLauncher_freshId, withLauncher_info]
  | _ => rfl

theorem attempt_withLauncher (hk : n.kind ≠ .subprocess) :
    n.attempt (withLauncher c launcher) = n.attempt c := by
  unfold attempt execute
  rw [handle_withLauncher c n launcher hk]
  rfl

variable {c n launcher other} {s : Session}

theorem subprocess_congr (h : SameFor c launcher other) (hf : Fresh c.env.idName s.world) :
    runFrom (n.subprocess (withLauncher c launcher)) s =
      runFrom (n.subprocess (withLauncher c other)) s := by
  show runFrom (startChild (withLauncher c launcher) launcher n >>= _) s =
    runFrom (startChild (withLauncher c other) other n >>= _) s
  rw [startChild_withLauncher, startChild_withLauncher, runFrom_bind, runFrom_bind,
    runFrom_startChild_congr h hf]
  rfl

theorem execute_congr (h : SameFor c launcher other) (hf : Fresh c.env.idName s.world) :
    (n.execute (withLauncher c launcher)).run s = (n.execute (withLauncher c other)).run s := by
  have hrun : runFrom (n.handle (withLauncher c launcher)) s =
      runFrom (n.handle (withLauncher c other)) s := by
    by_cases hk : n.kind = .subprocess
    · have hh : ∀ d, n.handle d = n.subprocess d := fun d => by rw [handle, hk]
      rw [hh, hh]
      exact subprocess_congr h hf
    · rw [handle_withLauncher c n launcher hk, handle_withLauncher c n other hk]
  rw [execute_run, execute_run, hrun]

theorem attempt_congr (h : SameFor c launcher other) (hf : Fresh c.env.idName s.world) :
    (n.attempt (withLauncher c launcher)).run s = (n.attempt (withLauncher c other)).run s :=
  execute_congr (s := { s with loops := { maxDepth := c.env.settings.maxLoopDepth } }) h hf

/-- A node does the same under two launchers that do the same for its children. -/
theorem runWithRetries_congr (h : SameFor c launcher other) (hf : Fresh c.env.idName s.world) :
    (n.runWithRetries (withLauncher c launcher)).run s =
      (n.runWithRetries (withLauncher c other)).run s := by
  unfold runWithRetries
  by_cases hk : n.kind = .subprocess
  · have hleft := retriesOf_subprocess c.env.settings hk
    rw [withLauncher_env, withLauncher_env, hleft, retrying_zero_run, retrying_zero_run,
      attempt_congr h hf]
  · rw [attempt_withLauncher c n launcher hk, attempt_withLauncher c n other hk]
    rfl

end Node

namespace Engine
variable {env : Env} {launcher other : Launcher} {f : Frame} {fs : List Frame} {w : World}
  {i : Instance} {n : Node}

/-! ## walks under two launchers -/

/-- Two launchers that do the same for the children of instances at a level. -/
def SameBelow (env : Env) (level : Nat) (launcher other : Launcher) : Prop :=
  ∀ r w, r.nestingLevel = level + 1 → r.nestingLevel ≤ env.settings.maxNestingLevel →
    Fresh env.idName w → runFrom (launcher r) w = runFrom (other r) w

theorem runNode_congr (h : SameBelow env i.nestingLevel launcher other)
    (hf : Fresh env.idName w) :
    runFrom (runNode env launcher i n) w = runFrom (runNode env other i n) w := by
  have hbegun : Fresh env.idName (begun env i n w) := (begun_quiet env i n w).fresh hf
  have hnode : ∀ vars, (n.runWithRetries
      (contextOf env launcher { i with currentNodeId := some n.id })).run
        (sessionOf env vars (begun env i n w)) = (n.runWithRetries
      (contextOf env other { i with currentNodeId := some n.id })).run
        (sessionOf env vars (begun env i n w)) := fun _ =>
    Node.runWithRetries_congr (c := ⟨env, i.id, i.nestingLevel, none⟩) h hbegun
  unfold runNode
  rw [runFrom_lift_bind, runFrom_lift_bind, runFrom_lift_bind, runFrom_lift_bind]
  show runFrom (inSession env i.vars _ >>= _) (begun env i n w) =
    runFrom (inSession env i.vars _ >>= _) (begun env i n w)
  rw [runFrom_bind, runFrom_bind, runFrom_inSession, runFrom_inSession, hnode]

/-- Walks under launchers that do the same for the children of their instance are the same. -/
theorem walk_congr (hl : Starts env.idName env.settings.maxNestingLevel launcher) (steps : Nat)
    (pending : List String) (h : SameBelow env i.nestingLevel launcher other)
    (hi : Current env.idName f fs i w) :
    runFrom (walk env launcher f.definition steps pending i) w =
      runFrom (walk env other f.definition steps pending i) w := by
  induction steps generalizing pending i w with
  | zero =>
    cases pending with
    | nil => rfl
    | cons id pending => rfl
  | succ steps ih =>
    cases pending with
    | nil => rfl
    | cons id pending =>
      unfold walk
      cases hn : f.definition.findNode? id with
      | none => rfl
      | some n =>
        obtain ⟨o, k, v, hnode, hstretch, hk, hfits⟩ :=
          runNode_stretch hl hi (Definition.findNode?_self hn)
        have hnode' := (runNode_congr (n := n) h hi.ready.fresh).symm.trans hnode
        have hcurrent := hi.after hstretch hk
        obtain ⟨next, u, hafter, hnext⟩ :=
          afterNode_follows env hcurrent env.settings.maxNestingLevel hfits
        show runFrom (runNode env launcher i n >>= _) w = runFrom (runNode env other i n >>= _) w
        rw [runFrom_bind_ok hnode, runFrom_bind_ok hnode']
        show runFrom (afterNode env f.definition k n o >>= _) v =
          runFrom (afterNode env f.definition k n o >>= _) v
        rw [runFrom_bind_ok hafter, runFrom_bind_ok hafter]
        cases next with
        | stop j => rfl
        | visit targets j =>
          refine ih (targets ++ pending) ?_ (hcurrent.after hnext.1 hnext.2)
          rw [hnext.1.origin.nestingLevel, hstretch.origin.nestingLevel]
          exact h

/-! ## starts under two launchers -/

theorem startWith_congr (hl : Starts env.idName env.settings.maxNestingLevel launcher)
    (r : StartRequest) (h : SameBelow env r.nestingLevel launcher other)
    (hf : Fresh env.idName w) :
    runFrom (startWith env launcher r) w = runFrom (startWith env other r) w := by
  by_cases hlevel : env.settings.maxNestingLevel < r.nestingLevel
  · rw [runFrom_startWith_tooDeep hlevel, runFrom_startWith_tooDeep hlevel]
  · cases hd : requested? w.store r with
    | none => rw [runFrom_startWith_unknown hlevel hd, runFrom_startWith_unknown hlevel hd]
    | some selected =>
      obtain ⟨d, pinned⟩ := selected
      have hready : Ready env.idName [] w := .of_fresh hf
      obtain ⟨j, u, hrun, _⟩ := startRun_halted hl hready r d pinned
      have hsame : startRun env launcher r d pinned w = startRun env other r d pinned w := by
        unfold startRun
        cases d.startNode? with
        | none => rfl
        | some n => exact walk_congr hl _ _ h (started_current hready r d pinned)
      rw [runFrom_startWith hlevel hd hrun, runFrom_startWith hlevel hd (hsame.symm.trans hrun)]

/-! ## the report at the end of a start -/

/-- a start that reports its instance, if it has ended, to the parent that waits for it -/
def startTelling (env : Env) (launcher : Launcher) (r : StartRequest) : Run EngineError String := do
  let id ← startWith env launcher r
  finish env (← getInstance id)
  return id

theorem startTelling_congr {r : StartRequest}
    (h : runFrom (startWith env launcher r) w = runFrom (startWith env other r) w) :
    runFrom (startTelling env launcher r) w = runFrom (startTelling env other r) w := by
  unfold startTelling
  rw [runFrom_bind, runFrom_bind, h]

theorem runFrom_settle_of_unlinked {child : Instance} (h : w.store.getLink? child.id = none)
    (fuel : Nat) : runFrom (settle env fuel child) w = (.ok (), w) := by
  cases fuel with
  | zero => rfl
  | succ fuel =>
    unfold settle
    split
    · rw [runFrom_fromStore_bind, h]
      rfl
    · rfl

/-- Nothing waits for an instance that is new, so its report changes nothing. -/
theorem runFrom_startTelling (hl : Starts env.idName env.settings.maxNestingLevel launcher)
    (hf : Fresh env.idName w) (r : StartRequest) :
    runFrom (startTelling env launcher r) w = runFrom (startWith env launcher r) w := by
  unfold startTelling
  rcases startWith_starts hl [] w r (.of_fresh hf) with
    ⟨e, hrun, _⟩ | ⟨id, w', hrun, hlaunched⟩
  · rw [runFrom_bind_error hrun, hrun]
  · obtain ⟨i, hi, hid, _⟩ := hlaunched.stored
    have hlink : w'.store.getLink? i.id = none := by
      rw [hid]
      exact hlaunched.unlinked
    have htold : runFrom (finish env i) w' = (.ok (), w') := by
      rw [runFrom_finish]
      exact runFrom_settle_of_unlinked hlink _
    rw [runFrom_bind_ok hrun, runFrom_bind_ok (runFrom_getInstance hi), runFrom_bind_ok htold, hrun]
    rfl

/-! ## one launcher for all levels -/

/-- A launcher that starts as the recursion says, its children by itself. -/
def Follows (env : Env) (launcher : Launcher) : Prop :=
  ∀ r w, Fresh env.idName w →
    runFrom (launcher r) w = runFrom (startTelling env launcher r) w

/-- with room for one level more, the children of a level are started by the engine -/
theorem start_eq_startWith (r : StartRequest) (hf : Fresh env.idName w) :
    runFrom (start env r) w = runFrom (startWith env (start env) r) w := by
  unfold start
  cases hlevels : env.settings.maxNestingLevel + 1 - r.nestingLevel with
  | zero =>
    have hlevel : env.settings.maxNestingLevel < r.nestingLevel := by omega
    rw [runFrom_startWith_tooDeep hlevel]
    rfl
  | succ levels =>
    refine startWith_congr (startWithin_starts levels) r (fun r' w' hr' _ _ => ?_) hf
    have hsame : levels = env.settings.maxNestingLevel + 1 - r'.nestingLevel := by omega
    rw [hsame]

theorem follows_start (env : Env) : Follows env (start env) := by
  intro r w hf
  rw [start_eq_startWith r hf, runFrom_startTelling start_starts hf]

theorem follows_startTelling (env : Env) : Follows env (startTelling env (start env)) := by
  intro r w hf
  have hbelow : SameBelow env r.nestingLevel (start env) (startTelling env (start env)) :=
    fun r' w' _ _ hf' => follows_start env r' w' hf'
  exact startTelling_congr (startWith_congr start_starts r hbelow hf)

/-- **The recursion has one solution.**  The induction is on the levels below a request. -/
theorem Follows.eq_start (h : Follows env launcher) (r : StartRequest)
    (hf : Fresh env.idName w) : runFrom (launcher r) w = runFrom (start env r) w := by
  induction hlevels : env.settings.maxNestingLevel + 1 - r.nestingLevel generalizing r w with
  | zero =>
    have hlevel : env.settings.maxNestingLevel < r.nestingLevel := by omega
    rw [h r w hf, follows_start env r w hf]
    unfold startTelling startWith
    rw [if_pos hlevel, if_pos hlevel]
  | succ levels ih =>
    have hbelow : SameBelow env r.nestingLevel (start env) launcher := by
      intro r' w' hr' _ hf'
      exact (ih r' hf' (by omega)).symm
    rw [h r w hf, follows_start env r w hf]
    exact (startTelling_congr (startWith_congr start_starts r hbelow hf)).symm

end Engine
end Workflows
