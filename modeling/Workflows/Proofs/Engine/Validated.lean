import Workflows.Proofs.Command.Validate
import Workflows.Proofs.Engine.Recursion
import Workflows.Proofs.Engine.Tour

/-!
# Runs of checked workflows

A walk fails where a pending id is no node, and where a node has an unknown kind; a start fails
without a start node.  Here these cases are replaced by any computation: the guarded walk and the
guarded start do what it says there, and also where a node is listed as unreachable.

* `guardedWalk`       a walk with another computation in these cases
* `guardedContinue`   what is done behind a node, likewise
* `guardedStart`      a start, likewise

Main statement: for a workflow that the command accepts the other computation makes no difference,
so that none of these cases is met; and every node in the log of an instance that was started is one
that can be run (`start_validated`).
-/

namespace Workflows.Engine

section
variable (env : Env) (launcher : Launcher) (other : Instance → Run EngineError Instance)

/-- The walk, with another computation where the next id is that of no node, of a node of an unknown
kind, or of a node that is listed as unreachable. -/
def guardedWalk (d : Definition) : (steps : Nat) → (pending : List String) → Instance →
    Run EngineError Instance
  | _, [], i => enterStatus env i .completed
  | 0, id :: _, i =>
    match d.runnable? id with
    | none => other i
    | some n => failInstance env i (budgetError env.settings.maxStepsPerTraversal n.id)
  | steps + 1, id :: pending, i =>
    match d.runnable? id with
    | none => other i
    | some n => do
      let (o, i) ← runNode env launcher i n
      match ← afterNode env d i n o with
      | .visit targets i => guardedWalk d steps (targets ++ pending) i
      | .stop i => return i

/-- going on behind a node, with a guarded walk -/
def guardedContinue (d : Definition) (i : Instance) (n : Node) (nodeId : String)
    (route : Option String) : Run EngineError Instance := do
  let now ← env.now
  let i := i.setStatus .running now
  let i ← persistStatus env { i with nodeStatuses := Dict.insert i.nodeStatuses nodeId .completed }
  guardedWalk env (start env) other d env.settings.maxStepsPerTraversal (d.nextNodes n route) i

/-- a start with a guarded walk, and with another computation where there is no start node -/
def guardedStart (r : StartRequest) : Run EngineError String := do
  if env.settings.maxNestingLevel < r.nestingLevel then
    throw (.node (.nestingLimit r.nestingLevel env.settings.maxNestingLevel))
  else match ← Run.fromStore fun s => requested? s r with
    | none => throw (.workflow (.notFound r.workflowId))
    | some (d, pinned) => do
      let id ← env.freshId
      World.tick
      let i := newInstance r d pinned id (← env.now)
      let _ ← Run.locked id do
        World.changeStore (·.insertInstance i)
        env.emit id (.instanceStarted d.id r.nestingLevel)
        match d.startNode? with
        | some n => guardedWalk env launcher other d env.settings.maxStepsPerTraversal [n.id] i
        | none => other i
      return id

end

variable {env : Env} {launcher : Launcher} {d : Definition} {i j : Instance} {n : Node}
  {o : Outcome} {w u : World} {r : StartRequest} {pinned : Option String}

/-! ## walks -/

/-- a walk goes on to what follows the node -/
theorem afterNode_targets {targets : List String}
    (h : runFrom (afterNode env d i n o) w = (.ok (.visit targets j), u)) :
    ∀ id ∈ targets, ∃ route, id ∈ d.nextNodes n route := by
  have hdone : runFrom (if n.kind = .finish then return .visit [] i
      else return .visit (d.nextNodes n o.route) i : Run EngineError Next) w =
        (.ok (.visit targets j), u) → ∀ id ∈ targets, ∃ route, id ∈ d.nextNodes n route := by
    intro h id hid
    split at h
    · cases h
      cases hid
    · cases h
      exact ⟨_, hid⟩
  have hpark : ∀ v, runFrom (do return .stop (← park env i o) : Run EngineError Next) v ≠
      (.ok (.visit targets j), u) := by
    intro v h
    obtain ⟨_, _, _, h⟩ := ok_of_runFrom_bind h
    cases h
  unfold afterNode at h
  split at h
  · exact hdone h
  · exact hdone h
  · exact hdone h
  · split at h
    · obtain ⟨p, v, _, h⟩ := ok_of_runFrom_bind h
      rcases p with _ | (k | k)
      · exact absurd h (hpark _)
      · cases h
        exact fun id hid => ⟨none, hid⟩
      · cases h
    · exact absurd h (hpark _)
  · obtain ⟨_, _, _, h⟩ := ok_of_runFrom_bind h
    cases h

/-- what a walk goes on to can be run, and what was pending -/
theorem pending_runnable (hd : d.Wellformed) {id : String} {targets pending : List String}
    (hn : d.findNode? id = some n)
    (hpending : ∀ id' ∈ id :: pending, d.Runnable id')
    (h : runFrom (afterNode env d i n o) w = (.ok (.visit targets j), u)) :
    ∀ id' ∈ targets ++ pending, d.Runnable id' := by
  obtain rfl := Definition.findNode?_id hn
  intro id' hid'
  rcases List.mem_append.mp hid' with htarget | hleft
  · obtain ⟨route, hnext⟩ := afterNode_targets h id' htarget
    exact hd.next (hpending _ List.mem_cons_self) hnext
  · exact hpending id' (List.mem_cons_of_mem _ hleft)

/-- **A walk from nodes that can be run meets no other ones.**  The induction is on the steps that
are left. -/
theorem guardedWalk_eq (hd : d.Wellformed) (other : Instance → Run EngineError Instance)
    (steps : Nat) {pending : List String} (h : ∀ id ∈ pending, d.Runnable id) (i : Instance)
    (w : World) : runFrom (guardedWalk env launcher other d steps pending i) w =
      runFrom (walk env launcher d steps pending i) w := by
  induction steps generalizing pending i w with
  | zero =>
    cases pending with
    | nil => rfl
    | cons id pending =>
      obtain ⟨n, hn⟩ := h id List.mem_cons_self
      unfold guardedWalk walk
      rw [hn, (Definition.runnable?_eq_some.mp hn).1]
  | succ steps ih =>
    cases pending with
    | nil => rfl
    | cons id pending =>
      obtain ⟨n, hn⟩ := h id List.mem_cons_self
      have hfound := (Definition.runnable?_eq_some.mp hn).1
      unfold guardedWalk walk
      rw [hn, hfound]
      refine runFrom_bind_congr fun ran v _ => runFrom_bind_congr fun next u hafter => ?_
      cases next with
      | visit targets j => exact ih (pending_runnable hd hfound h hafter) j u
      | stop j => rfl

/-- nothing else is done behind a node that can be run -/
theorem guardedContinue_eq (hd : d.Wellformed) (other : Instance → Run EngineError Instance)
    (hn : d.Runnable n.id) (i : Instance) (nodeId : String) (route : Option String) (w : World) :
    runFrom (guardedContinue env other d i n nodeId route) w =
      runFrom (continueAfter env d i n nodeId route) w := by
  unfold guardedContinue continueAfter walkFrom
  rw [runFrom_lift_bind, runFrom_lift_bind]
  refine runFrom_bind_congr fun j v _ => ?_
  exact guardedWalk_eq hd other _ (fun id hid => hd.next hn hid) j v

/-! ## starts -/

theorem runFrom_locked_bind_congr {α β : Type} {id : String} {x y : Run EngineError α}
    (h : runFrom x (w.locked id) = runFrom y (w.locked id)) (f : α → Run EngineError β) :
    runFrom (Run.locked id x >>= f) w = runFrom (Run.locked id y >>= f) w := by
  rw [runFrom_bind, runFrom_bind, runFrom_locked, runFrom_locked, h]

/-- A start finds a start node, and walks on nodes that can be run.  This holds of children, too. -/
theorem guardedStart_eq (hd : d.Wellformed) (hr : requested? w.store r = some (d, pinned))
    (other : Instance → Run EngineError Instance) :
    runFrom (guardedStart env launcher other r) w = runFrom (startWith env launcher r) w := by
  unfold guardedStart startWith
  by_cases hlevel : env.settings.maxNestingLevel < r.nestingLevel
  · rw [if_pos hlevel, if_pos hlevel]
  · rw [if_neg hlevel, if_neg hlevel, runFrom_fromStore_bind, runFrom_fromStore_bind, hr]
    dsimp only
    rw [runFrom_lift_bind, runFrom_lift_bind, runFrom_lift_bind, runFrom_lift_bind,
      runFrom_lift_bind, runFrom_lift_bind]
    refine runFrom_locked_bind_congr ?_ _
    rw [runFrom_lift_bind, runFrom_lift_bind, runFrom_lift_bind, runFrom_lift_bind]
    obtain ⟨s, hs⟩ := hd.start
    rw [hs]
    refine guardedWalk_eq hd other _ (fun id hid => ?_) _ _
    rw [List.mem_singleton.mp hid]
    exact hd.runnable_start hs

/-! ## logs -/

theorem not_mem_untrodden {pending : List String} {t : Trail} {v : Visited}
    (h : runFrom (untrodden env launcher d pending i) w = (.ok (j, t), u)) : v ∉ t.visits := by
  obtain ⟨_, _, _, h⟩ := ok_of_runFrom_bind h
  cases h
  exact List.not_mem_nil

/-- The nodes on a trail can be run.  The induction is on the steps that are left. -/
theorem trail_runnable (hd : d.Wellformed) (steps : Nat) {pending : List String} {t : Trail}
    (h : ∀ id ∈ pending, d.Runnable id)
    (hrun : runFrom (trail env launcher d steps pending i) w = (.ok (j, t), u)) :
    ∀ v ∈ t.visits, d.Runnable v.node.id := by
  induction steps generalizing pending i w j t u with
  | zero => exact fun v hv => absurd hv (not_mem_untrodden hrun)
  | succ steps ih =>
    cases pending with
    | nil => exact fun v hv => absurd hv (not_mem_untrodden hrun)
    | cons id pending =>
      unfold trail at hrun
      cases hn : d.findNode? id with
      | none =>
        rw [hn] at hrun
        exact fun v hv => absurd hv (not_mem_untrodden hrun)
      | some n =>
        rw [hn] at hrun
        have hfirst : d.Runnable n.id := by
          rw [Definition.findNode?_id hn]
          exact h id List.mem_cons_self
        obtain ⟨⟨o, k⟩, v, _, hrun⟩ := ok_of_runFrom_bind hrun
        obtain ⟨next, v', hafter, hrun⟩ := ok_of_runFrom_bind hrun
        cases next with
        | visit targets l =>
          obtain ⟨⟨j', t'⟩, u', hrest, hrun⟩ := ok_of_runFrom_bind hrun
          cases hrun
          intro x hx
          rcases List.mem_cons.mp hx with rfl | hx
          · exact hfirst
          · exact ih (pending_runnable hd hn h hafter) hrest x hx
        | stop l =>
          cases hrun
          intro x hx
          rw [List.mem_singleton.mp hx]
          exact hfirst

/-- a log that was empty before the walk has the nodes of the trail -/
theorem Charted.runnable {pending : List String} {t : Trail} (h : Charted d pending i t j)
    (hi : i.log = []) (ht : ∀ v ∈ t.visits, d.Runnable v.node.id) :
    ∀ e ∈ j.log, d.Runnable e.nodeId := by
  intro e he
  have hentry : (e.nodeId, e.status) ∈ j.entries := List.mem_map_of_mem he
  have hnew : i.entries = [] := by rw [Instance.entries, hi]; rfl
  rw [h.entries, hnew, List.nil_append] at hentry
  obtain ⟨v, hv, hsame⟩ := List.mem_map.mp hentry
  have hid : v.node.id = e.nodeId := congrArg Prod.fst hsame
  rw [← hid]
  exact ht v hv

/-- Every node in the log of an instance that was started can be run. -/
theorem start_runnable (hd : d.Wellformed) (hf : Fresh env.idName w)
    (hr : requested? w.store r = some (d, pinned))
    (hlevel : r.nestingLevel ≤ env.settings.maxNestingLevel) :
    ∃ j u, runFrom (start env r) w = (.ok (env.idName w.ids), u) ∧
      u.store.getInstance? (env.idName w.ids) = some j ∧ ∀ e ∈ j.log, d.Runnable e.nodeId := by
  have hready : Ready env.idName [] w := .of_fresh hf
  have hcurrent := started_current hready r d pinned
  obtain ⟨s, hs⟩ := hd.start
  obtain ⟨j, t, u, htrail, hj, ht⟩ :=
    trail_charted start_starts env.settings.maxStepsPerTraversal [s.id] hcurrent
  have hwalk := runFrom_fst (trail_eq_walk d env.settings.maxStepsPerTraversal [s.id]
    (startedAs env r d pinned w)) htrail
  have hrun : startRun env (start env) r d pinned w = (.ok j, u) := by
    unfold startRun
    rw [hs]
    exact hwalk
  rw [start_eq_startWith r hf]
  refine ⟨j, _, runFrom_startWith (Nat.not_lt.mpr hlevel) hr hrun, hj.stretch.stored, ?_⟩
  refine ht.runnable rfl (trail_runnable hd _ (fun id hid => ?_) htrail)
  rw [List.mem_singleton.mp hid]
  exact hd.runnable_start hs

/-! ## checked workflows -/

/-- **A start of a workflow that the command accepts does not fail for the shape of its graph.**  It
finds a start node, be it a start at the top or of a child; and no walk, be it from the start node
or behind a node that can be run, comes to an id that is no node, to a node of an unknown kind, or
to one that is listed as unreachable: any other computation could stand there.  So every node in
the log of the new instance can be run. -/
theorem start_validated {file : String} {t : Terminal}
    (hload : (runFrom (Script.loadWorkflow file) t).1 = .ok d)
    (haccepted : (runFrom (Script.validateWorkflow file) t).1 = .ok ())
    (hr : requested? w.store r = some (d, pinned)) :
    (∀ other, runFrom (start env r) w = runFrom (guardedStart env
      (startWithin env (env.settings.maxNestingLevel - r.nestingLevel)) other r) w) ∧
    (∀ launcher other, runFrom (startWith env launcher r) w =
      runFrom (guardedStart env launcher other r) w) ∧
    (∀ other i n nodeId route v, d.Runnable n.id →
      runFrom (continueAfter env d i n nodeId route) v =
        runFrom (guardedContinue env other d i n nodeId route) v) ∧
    (Fresh env.idName w → r.nestingLevel ≤ env.settings.maxNestingLevel →
      ∃ j u, runFrom (start env r) w = (.ok (env.idName w.ids), u) ∧
        u.store.getInstance? (env.idName w.ids) = some j ∧ ∀ e ∈ j.log, d.Runnable e.nodeId) := by
  have hd : d.Wellformed := (Script.validateWorkflow_ok_iff hload).mp haccepted
  refine ⟨fun other => ?_, fun launcher other => (guardedStart_eq hd hr other).symm,
    fun other i n nodeId route v hn => (guardedContinue_eq hd other hn i nodeId route v).symm,
    fun hf hlevel => start_runnable hd hf hr hlevel⟩
  rw [guardedStart_eq hd hr]
  unfold start
  cases hlevels : env.settings.maxNestingLevel + 1 - r.nestingLevel with
  | zero =>
    have hlevel : env.settings.maxNestingLevel < r.nestingLevel := by omega
    unfold startWithin startWith
    rw [if_pos hlevel]
  | succ levels =>
    have hsame : levels = env.settings.maxNestingLevel - r.nestingLevel := by omega
    rw [hsame]
    rfl

/-! ### a workflow with a node beside its path -/

namespace Sample

def detour : Definition where
  id := "w"
  name := "w"
  description := none
  status := .draft
  version := 1
  subprocessCompatible := false
  nodes := [⟨"s", .start, none, .null⟩, ⟨"e", .finish, none, .null⟩, ⟨"x", .task, none, .null⟩]
  edges := [⟨"a", "s", "e", none, none⟩]

def detourText : String :=
  "\x7b\"id\":\"w\",\"name\":\"w\",\"nodes\":[\x7b\"id\":\"s\",\"type\":\"start\"\x7d," ++
  "\x7b\"id\":\"e\",\"type\":\"end\"\x7d,\x7b\"id\":\"x\",\"type\":\"task\"\x7d]," ++
  "\"edges\":[\x7b\"id\":\"a\",\"source\":\"s\",\"target\":\"e\"\x7d]\x7d"

def detourTerminal : Terminal := { disk := { files := [("detour.json", detourText)] } }

def detourWorld : World := { store := ({} : Store).saveWorkflow detour }

end Sample

/-- The workflow is accepted in spite of the node beside its path, which is not run. -/
theorem start_validated_detour : "x" ∈ Sample.detour.unreachable ∧
    ∃ j u, runFrom (start Sample.env (.of "w")) Sample.detourWorld = (.ok "i", u) ∧
      u.store.getInstance? "i" = some j ∧ ∀ e ∈ j.log, Sample.detour.Runnable e.nodeId := by
  have hload : (runFrom (Script.loadWorkflow "detour.json") Sample.detourTerminal).1 =
      .ok Sample.detour := by
    have hanswer : (runFrom (Script.loadWorkflow "detour.json")
        Sample.detourTerminal).1.toOption = some Sample.detour := by decide +kernel
    revert hanswer
    cases (runFrom (Script.loadWorkflow "detour.json") Sample.detourTerminal).1 with
    | ok d => exact fun h => congrArg Except.ok (Option.some.inj h)
    | error e => exact nofun
  have haccepted : (runFrom (Script.validateWorkflow "detour.json")
      Sample.detourTerminal).1 = .ok () :=
    (Script.validateWorkflow_ok_iff hload).mpr (problems_eq_nil_iff.mp (by decide +kernel))
  have hr : requested? Sample.detourWorld.store (.of "w") = some (Sample.detour, none) := by
    decide +kernel
  have hfresh : Fresh Sample.env.idName Sample.detourWorld :=
    ⟨Sample.names_injective, fun _ _ => rfl, fun _ _ => rfl⟩
  exact ⟨by decide +kernel, (start_validated hload haccepted hr).2.2.2 hfresh (by decide)⟩

end Workflows.Engine
