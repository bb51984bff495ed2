import Workflows.Proofs.Engine.Recursion
import Workflows.Proofs.Engine.Safeguard
import Workflows.Proofs.Node.Alike
import Workflows.Proofs.Node.Retry

/-!
# Single steps

A single step runs a node outside of a walk: under the lock of its instance, once, without telling that the node begins
and how it ends, and without what follows it.  A walk runs the same node from the same record.

* `World.Matches`       worlds in which the same was done, whatever was told and locked
* `Instance.SameRun`    records that agree in what the nodes of an instance have left
* `Next.targets`        the nodes that a walk puts in front of the pending ones
* `attempts`            the attempts at a node in a walk
* `NodeRun.Yields P`    a computation whose answers satisfy `P`

Main statement: where the walk does not try the node again, both leave the same, and the step lists the nodes to which
the walk goes on; only behind an end node the walk goes nowhere, while the step lists all its targets
(`stepNode_walk`).
-/

namespace Workflows

/-! ## worlds in which the same was done -/

/-- Worlds in which the same was done, whatever was told and locked. -/
structure World.Matches (w w' : World) : Prop where
  store : w'.store = w.store := by rfl
  ids : w'.ids = w.ids := by rfl
  ticks : w'.ticks = w.ticks := by rfl
  sent : w'.sent = w.sent := by rfl
  refusals : w'.refusals = w.refusals := by rfl

/-- a record that is stored already -/
theorem World.insertInstance_put (w : World) (i : Instance) :
    (w.put i).store.insertInstance i = (w.put i).store := by
  show { w.store with instances := Dict.insert (Dict.insert w.store.instances i.id i) i.id i } = _
  rw [Dict.insert_insert_self]
  rfl

namespace World.Matches
variable {u v w : World}

theorem trans (h : Matches u v) (h' : Matches v w) : Matches u w :=
  ⟨h'.store.trans h.store, h'.ids.trans h.ids, h'.ticks.trans h.ticks, h'.sent.trans h.sent,
    h'.refusals.trans h.refusals⟩

theorem put (h : Matches v w) (i : Instance) : Matches (v.put i) (w.put i) :=
  { h with store := congrArg (·.insertInstance i) h.store }

theorem unlocked (h : Matches v w) (id : String) : Matches (v.unlocked id) w := { h with }

theorem time (h : Matches v w) (env : Env) : env.time w = env.time v := congrArg env.epoch.addNanos h.ticks

/-- No run looks at what was told and locked. -/
theorem steady (env : Env) : Steady env Matches where
  now _ _ h := ⟨h.time env, h⟩
  freshId _ _ h := ⟨congrArg env.idName h.ids, { h with ids := congrArg (· + 1) h.ids }⟩
  emit _ _ _ _ h := ⟨rfl, { h with }⟩
  send r v w h := by
    refine ⟨?_, { h with sent := congrArg (·.push r) h.sent }⟩
    show env.reply w.sent.size r = env.reply v.sent.size r
    rw [h.sent]
  fromStore {_ f} _ _ _ h := ⟨congrArg f h.store, h⟩
  onStore {_ f} _ _ _ _ h :=
    ⟨congrArg (fun s => (f s).1) h.store, { h with store := congrArg (fun s => (f s).2) h.store }⟩

end World.Matches

/-! ## outcomes of one attempt -/

/-- a computation whose answers satisfy a condition -/
def NodeRun.Yields {α : Type} (P : α → Prop) (x : NodeRun α) : Prop := ∀ s a, (runFrom x s).1 = .ok a → P a

namespace NodeRun.Yields
variable {α β : Type}

theorem pure {P : α → Prop} {a : α} (h : P a) : Yields P (pure a : NodeRun α) := by
  rintro s b ⟨⟩
  exact h

theorem throw (P : α → Prop) (e : NodeError) : Yields P (throw e : NodeRun α) := nofun

theorem bind {P : β → Prop} (x : NodeRun α) {f : α → NodeRun β} (h : ∀ a, Yields P (f a)) : Yields P (x >>= f) := by
  intro s b hb
  rw [runFrom_bind] at hb
  rcases hr : runFrom x s with ⟨r, t⟩
  rw [hr] at hb
  cases r with
  | ok a => exact h a t b hb
  | error e => cases hb

end NodeRun.Yields

/-- the outcome of a node that was not tried again -/
def Outcome.Unrepeated (o : Outcome) : Prop := o.retries = 0

namespace Node
open NodeRun
variable {c : NodeContext} {n : Node}

theorem replyOutcome_unrepeated (limit : Nat) (r : HttpReply) : (replyOutcome limit r).Unrepeated := by
  unfold replyOutcome
  dsimp only
  split
  · rfl
  · rfl

/-- Handlers count no repetitions. -/
theorem handle_unrepeated (c : NodeContext) (n : Node) : Yields Outcome.Unrepeated (n.handle c) := by
  unfold handle
  cases n.kind
  -- every handler is a list of steps, then an outcome or a cause of failure
  all_goals try dsimp only [task, decision, switch, approval, form, screen, action, call, timer, timerWait, event,
    emitEvent, awaitEvent, assignment, loopForEach, loopWhile, loopDoWhile, loopRepeat, loopControl, lookupRecord,
    createRecord, updateRecord, deleteRecord, transform, filter, sort, aggregate, calculate, subprocess, misconfigured,
    bind_assoc]
  all_goals repeat' first
    | with_reducible exact Yields.throw _ _
    | with_reducible refine Yields.bind _ fun _ => ?_
    | with_reducible refine Yields.pure ?_
    | split
  all_goals first
    | rfl
    | exact replyOutcome_unrepeated _ _

theorem attempt_unrepeated (s : Session) : ((n.attempt c).run s).1.Unrepeated := by
  have hrun : ((n.attempt c).run s).1 = outcomeOf (runFrom (n.handle c)
      { s with loops := { maxDepth := c.env.settings.maxLoopDepth } }).1 :=
    congrArg Prod.fst (execute_run c n _)
  rw [hrun]
  cases ho : (runFrom (n.handle c) { s with loops := { maxDepth := c.env.settings.maxLoopDepth } }).1 with
  | ok o => exact handle_unrepeated c n _ o ho
  | error e => rfl

end Node

/-- Records that agree in what the nodes of an instance have left. -/
structure Instance.SameRun (i j : Instance) : Prop where
  id : j.id = i.id := by rfl
  log : j.log = i.log := by rfl
  vars : j.vars = i.vars := by rfl
  nodeStatuses : j.nodeStatuses = i.nodeStatuses := by rfl
  currentNodeId : j.currentNodeId = i.currentNodeId := by rfl

namespace Engine
variable {env : Env} {launcher : Launcher} {d : Definition} {i j : Instance} {n : Node} {nodeId : String} {w : World}

/-! ## one node in two runs -/

/-- the attempts at a node in a walk, and the sessions after them -/
def attempts (env : Env) (launcher : Launcher) (i : Instance) (n : Node) (w : World) (k : Nat) : Outcome × Session :=
  n.tries (contextOf env launcher { i with currentNodeId := some n.id }) (sessionOf env i.vars (begun env i n w)) k

/-- A node that is not tried again has the outcome of its first attempt. -/
theorem nodeRun_once
    (honce : n.attemptLimit env.settings = 1 ∨ ¬ (attempts env launcher i n w 1).1.Transient) :
    nodeRun env launcher i n w = attempts env launcher i n w 1 := by
  obtain ⟨k, hpos, hleast, hrun⟩ := n.runWithRetries_least
    (contextOf env launcher { i with currentNodeId := some n.id }) (sessionOf env i.vars (begun env i n w))
  have hle : k ≤ 1 := by
    rcases honce with hlimit | hnot
    · exact hleast.2 (.inl hlimit.symm)
    · exact hleast.2 (.inr ⟨Nat.le_refl 1, hnot⟩)
  have hk : k = 1 := Nat.le_antisymm hle hpos
  subst hk
  have hretries : (attempts env launcher i n w 1).1.retries = 0 := Node.attempt_unrepeated _
  show (n.runWithRetries _).run _ = _
  rw [hrun]
  refine Prod.ext ?_ rfl
  show { (attempts env launcher i n w 1).1 with retries := 1 - 1 } = (attempts env launcher i n w 1).1
  rw [Nat.sub_self, ← hretries]

/-- The first attempt of a walk and the single step have the same outcome, and leave the same. -/
theorem attempts_one (env : Env) (launcher : Launcher) (i : Instance) (w : World) (hk : n.kind ≠ .subprocess) :
    (attempts env launcher i n w 1).1 = (stepRun env i n (w.locked i.id)).1 ∧
      SessionsOver World.Matches (stepRun env i n (w.locked i.id)).2 (attempts env launcher i n w 1).2 := by
  have hlauncher : attempts env launcher i n w 1 =
      (n.attempt (contextOf env (start env) { i with currentNodeId := some n.id })).run
        (sessionOf env i.vars (begun env i n w)) :=
    congrArg (fun f : StateM Session Outcome => f.run (sessionOf env i.vars (begun env i n w)))
      (Node.attempt_withLauncher (contextOf env (start env) { i with currentNodeId := some n.id }) n launcher hk)
  have hhandle := (Node.handle_made (contextOf env (start env) { i with currentNodeId := some n.id }) n hk).over
    (World.Matches.steady env)
  rw [hlauncher]
  exact Node.attempt_mirrors_of hhandle (fun _ h => ⟨h.vars, rfl, h.worlds⟩) _ _ ⟨rfl, rfl, {}⟩

theorem stepRun_stored (hk : n.kind ≠ .subprocess) (w : World) (id : String) :
    (stepRun env i n w).2.world.store.getInstance? id = w.store.getInstance? id :=
  ((Node.attempt_ran _ n _).isApart hk).1.getInstance? id

/-! ## behind a node -/

/-- the nodes that a walk puts in front of the pending ones -/
def Next.targets : Next → List String
  | .visit targets _ => targets
  | .stop _ => []

/-- the rest of a walk -/
def Next.goOn (env : Env) (launcher : Launcher) (d : Definition) (steps : Nat) (pending : List String) :
    Next → Run EngineError Instance
  | .visit targets i => walk env launcher d steps (targets ++ pending) i
  | .stop i => return i

/-- A node that starts no child is followed by its targets, or by one record of an instance that waits or has failed. -/
theorem afterNode_passed (env : Env) (d : Definition) (hj : w.store.insertInstance j = w.store)
    (hk : n.kind ≠ .subprocess) (o : Outcome) :
    ∃ next v, runFrom (afterNode env d j n o) w = (.ok next, v) ∧ j.SameRun next.record ∧
      (w.put next.record).Matches v ∧
      next.targets = if o.status.isDone = true ∧ n.kind ≠ .finish then d.nextNodes n o.route else [] := by
  have hstored : w.store.getInstance? j.id = some j := by
    rw [← hj]
    exact Store.getInstance?_insertInstance_self w.store j
  unfold afterNode
  cases ho : o.status with
  | completed | breakLoop | continueLoop =>
    by_cases hf : n.kind = .finish
    · refine ⟨.visit [] j, w, by simp only [if_pos hf]; rfl, {}, { store := hj.symm }, ?_⟩
      rw [if_neg fun h => h.2 hf]
      rfl
    · refine ⟨.visit (d.nextNodes n o.route) j, w, by simp only [if_neg hf]; rfl, {}, { store := hj.symm }, ?_⟩
      rw [if_pos ⟨rfl, hf⟩]
      rfl
  | failed =>
    have hrun := runFrom_failInstance env hstored rfl (o.error.getD ("Node " ++ n.id ++ " failed"))
    refine ⟨_, _, runFrom_bind_ok hrun _, {}, {}, ?_⟩
    rw [if_neg fun h => Bool.false_ne_true h.1]
    rfl
  | waiting =>
    simp only [if_neg hk]
    refine ⟨_, _, runFrom_bind_ok (runFrom_park env hstored o) _, {}, {}, ?_⟩
    rw [if_neg fun h => Bool.false_ne_true h.1]
    rfl

theorem walk_passed (hn : d.findNode? nodeId = some n) {o : Outcome} {next : Next} {u v : World}
    (hnode : runFrom (runNode env launcher i n) w = (.ok (o, j), u))
    (hafter : runFrom (afterNode env d j n o) u = (.ok next, v)) (steps : Nat) (pending : List String) :
    runFrom (walk env launcher d (steps + 1) (nodeId :: pending) i) w =
      runFrom (next.goOn env launcher d steps pending) v := by
  rw [walk, hn]
  dsimp only
  rw [runFrom_bind_ok hnode, runFrom_bind_ok hafter]
  cases next with
  | visit targets i => rfl
  | stop i => rfl

/-! ## a step beside a walk -/

/-- A walk that does not try a node again writes the record of a single step. -/
theorem runNode_step (hi : w.store.getInstance? i.id = some i) (hk : n.kind ≠ .subprocess)
    (honce : n.attemptLimit env.settings = 1 ∨ ¬ (attempts env launcher i n w 1).1.Transient) :
    ∃ v, (stepRun env i n (w.locked i.id)).2.world.Matches v ∧ runFrom (runNode env launcher i n) w =
      (.ok ((stepRun env i n (w.locked i.id)).1, stepRecord env i n (w.locked i.id)),
        v.put (stepRecord env i n (w.locked i.id))) := by
  obtain ⟨hsame, hsessions⟩ := attempts_one env launcher i w hk
  rw [← nodeRun_once honce] at hsame hsessions
  have hworlds : (stepRun env i n (w.locked i.id)).2.world.Matches (ended env launcher i n w) :=
    hsessions.worlds.trans {}
  have hrecord : (recorded env launcher i n w).written (env.time (ended env launcher i n w)) =
      stepRecord env i n (w.locked i.id) := by
    rw [hworlds.time env, stepRecord, recordStep, recorded, hsame, hsessions.vars, hsessions.worlds.time env]
    rfl
  have hstored : (ended env launcher i n w).store.getInstance? i.id = some i := by
    rw [hworlds.store, stepRun_stored hk]
    exact hi
  refine ⟨_, hworlds, ?_⟩
  rw [runFrom_runNode env launcher i n hstored, hrecord, hsame]

/-- an end node completes and chooses no branch -/
theorem stepRun_finish (hf : n.kind = .finish) : (stepRun env i n w).1 = .completed := by
  have hhandle : ∀ c, n.handle c = pure .completed := fun c => by
    rw [Node.handle, hf]
  have hrun : ∀ c s, ((n.execute c).run s).1 = Node.outcomeOf (runFrom (n.handle c) s).1 :=
    fun c s => congrArg Prod.fst (Node.execute_run c n s)
  show ((n.execute _).run _).1 = _
  rw [hrun, hhandle]
  rfl

/-- **A single step of a node leaves what a walk leaves**, if the walk does not try the node again: the record has the
same new entry in its log, the same variables, states of nodes and current node, and else the worlds differ in what was
told and locked.  The step lists the nodes to which the walk goes on; only behind an end node the walk goes nowhere,
while the step lists all its targets. -/
theorem stepNode_walk (hi : w.store.getInstance? i.id = some i) (hd : definitionOf? w.store i = some d)
    (hn : d.findNode? nodeId = some n) (hk : n.kind ≠ .subprocess)
    (honce : n.attemptLimit env.settings = 1 ∨ ¬ (attempts env launcher i n w 1).1.Transient) :
    ∃ (report : StepReport) (u v : World) (j : Instance) (next : Next),
      runFrom (stepNode env i.id nodeId) w = (.ok report, u) ∧
      (∀ steps pending, runFrom (walk env launcher d (steps + 1) (nodeId :: pending) i) w =
        runFrom (next.goOn env launcher d steps pending) v) ∧
      u.store.getInstance? i.id = some j ∧ v.store.getInstance? i.id = some next.record ∧
      (∃ entry, j.log = i.log ++ [entry]) ∧ j.SameRun next.record ∧ report.vars = j.vars ∧
      (u.put next.record).Matches v ∧
      (n.kind ≠ .finish → next.targets = report.nextNodes) ∧
      (n.kind = .finish → next.targets = [] ∧ report.nextNodes = d.nextNodes n none) := by
  obtain ⟨u, hworlds, hnode⟩ := runNode_step hi hk honce
  have hstored : (stepRun env i n (w.locked i.id)).2.world.store.getInstance? i.id = some i :=
    (stepRun_stored hk _ _).trans hi
  have hstep := runFrom_stepNode_of_stored hi hd hn hstored
  obtain ⟨next, v, hafter, hrun, hmatches, htargets⟩ :=
    afterNode_passed env d (World.insertInstance_put u _) hk (stepRun env i n (w.locked i.id)).1
  have hlast := (((hworlds.put (stepRecord env i n (w.locked i.id))).unlocked i.id).put next.record).trans hmatches
  refine ⟨_, _, v, stepRecord env i n (w.locked i.id), next, hstep, walk_passed hn hnode hafter,
    World.getInstance?_put_self rfl, ?_, ⟨_, rfl⟩, hrun, rfl, hlast, fun hf => ?_, fun hf => ⟨?_, ?_⟩⟩
  · rw [hlast.store]
    exact World.getInstance?_put_self hrun.id
  · rw [htargets]
    simp only [hf, ne_eq, not_false_eq_true, and_true]
    rfl
  · rw [htargets]
    exact if_neg fun h => h.2 hf
  · show (if _ then _ else _) = _
    rw [stepRun_finish hf]
    rfl

/-! ### an end node with a target -/

namespace Sample

def setNode : Node :=
  ⟨"set", .assignment, none, .obj [("assignments", .arr [.obj [("value", .ofNat 1), ("variable", .str "x")]])]⟩

/-- a variable is set, then the end; behind the end stands another node -/
def beyond : Definition where
  id := "beyond"
  name := "beyond"
  description := none
  status := .published
  version := 1
  subprocessCompatible := true
  nodes := [⟨"begin", .start, none, .null⟩, setNode, ⟨"done", .finish, none, .null⟩, ⟨"more", .merge, none, .null⟩]
  edges := [⟨"1", "begin", "set", none, none⟩, ⟨"2", "set", "done", none, none⟩, ⟨"3", "done", "more", none, none⟩]

def resting : Instance := Instance.create "i" "beyond" "system" [] ⟨0, 0⟩

def shelf : World := { store := (({} : Store).saveWorkflow beyond).insertInstance resting }

end Sample

theorem stepNode_walk_assignment : Sample.setNode.kind ≠ .subprocess ∧ Sample.setNode.attemptLimit {} = 1 ∧
    ∃ (report : StepReport) (u v : World) (next : Next),
      runFrom (stepNode Sample.env "i" "set") Sample.shelf = (.ok report, u) ∧
      runFrom (walk Sample.env (start Sample.env) Sample.beyond 3 ["set"] Sample.resting) Sample.shelf =
        runFrom (next.goOn Sample.env (start Sample.env) Sample.beyond 2 []) v ∧
      report.vars = next.record.vars ∧ next.targets = report.nextNodes ∧ report.nextNodes = ["done"] := by
  have hi : Sample.shelf.store.getInstance? Sample.resting.id = some Sample.resting := by decide +kernel
  have hd : definitionOf? Sample.shelf.store Sample.resting = some Sample.beyond := rfl
  have hn : Sample.beyond.findNode? "set" = some Sample.setNode := rfl
  have hk : Sample.setNode.kind ≠ .subprocess := by decide
  have honce : Sample.setNode.attemptLimit Sample.env.settings = 1 ∨
      ¬ (attempts Sample.env (start Sample.env) Sample.resting Sample.setNode Sample.shelf 1).1.Transient := .inl rfl
  obtain ⟨report, u, v, j, next, hstep, hwalk, -, -, -, hrun, hvars, -, htargets, -⟩ :=
    stepNode_walk hi hd hn hk honce
  have hnext : (runFrom (stepNode Sample.env "i" "set") Sample.shelf).1.toOption.map (·.nextNodes) =
      some ["done"] := by
    decide +kernel
  rw [show runFrom (stepNode Sample.env "i" "set") Sample.shelf = (.ok report, u) from hstep] at hnext
  exact ⟨hk, rfl, report, u, v, next, hstep, hwalk 2 [], hvars.trans hrun.vars.symm, htargets (by decide),
    Option.some.inj hnext⟩

/-- A single step of the end node lists a node to which a walk does not go on. -/
theorem stepNode_beyond_finish :
    (runFrom (stepNode Sample.env "i" "done") Sample.shelf).1.toOption.map (·.nextNodes) = some ["more"] ∧
      (runFrom (walk Sample.env (start Sample.env) Sample.beyond 3 ["done"] Sample.resting)
        Sample.shelf).1.toOption.map (fun j => (j.status, j.log.map (·.nodeId))) =
          some (.completed, ["done"]) :=
  ⟨by decide +kernel, by decide +kernel⟩

end Engine
end Workflows
