import Workflows.Proofs.Engine.Alike
import Workflows.Proofs.Engine.DepthFirst
import Workflows.Proofs.Engine.Status

/-!
# Walks of twins

Two records of one instance are twins if it has come equally far in both: they differ in their
state, in what they wait for, and in when and how often they were written.  A walk reads none of
these, so it ends in the same way from either, in worlds that are alike but for the two records.

* `Twin`        records that are equally far
* `SameFate`    what is compared in the end
* `walkBehind`  the walk behind a node that has been run
* `Overruns`    a walk that meets a node when its steps are used up

Main statement: a walk that does not overrun has the same end from a twin, with as many steps or
more (`walk_sameResult`).
-/

namespace Workflows

namespace Instance

/-- the instance with another state, wait, time of its last write and version -/
def standing (i : Instance) (status : InstanceStatus) (wait : Option Wait) (time : Instant)
    (version : Nat) : Instance :=
  { i with status := status, waitingFor := wait, updatedAt := time, version := version }

def Twin (i j : Instance) : Prop :=
  ∃ status wait time version, j = i.standing status wait time version

/-- Two records say the same of an instance, up to the times and the number of their writes. -/
structure SameFate (i j : Instance) : Prop where
  vars : j.vars = i.vars
  nodeStatuses : j.nodeStatuses = i.nodeStatuses
  children : j.children = i.children
  error : j.error = i.error
  friendlyError : j.friendlyError = i.friendlyError
  status : j.status = i.status
  /-- the nodes that were run, in their order, with their results -/
  log : j.log.map (fun e => (e.nodeId, e.nodeType, e.status, e.error, e.output, e.retries)) =
    i.log.map fun e => (e.nodeId, e.nodeType, e.status, e.error, e.output, e.retries)

namespace Twin
variable {i j k : Instance}

theorem symm (h : i.Twin j) : j.Twin i := by
  obtain ⟨_, _, _, _, rfl⟩ := h
  exact ⟨i.status, i.waitingFor, i.updatedAt, i.version, rfl⟩

theorem trans (h : i.Twin j) (h' : j.Twin k) : i.Twin k := by
  obtain ⟨_, _, _, _, rfl⟩ := h
  obtain ⟨_, _, _, _, rfl⟩ := h'
  exact ⟨_, _, _, _, rfl⟩

theorem of_written (i : Instance) (now : Instant) : i.Twin (i.written now) :=
  ⟨i.status, i.waitingFor, now, i.version + 1, rfl⟩

theorem id (h : i.Twin j) : j.id = i.id := by
  obtain ⟨_, _, _, _, rfl⟩ := h
  rfl

theorem sameFate (h : i.Twin j) (hs : j.status = i.status) : SameFate i j := by
  obtain ⟨_, _, _, _, rfl⟩ := h
  exact ⟨rfl, rfl, rfl, rfl, rfl, hs, rfl⟩

theorem written (h : i.Twin j) (now now' : Instant) : (i.written now).Twin (j.written now') :=
  ((of_written i now).symm.trans h).trans (of_written j now')

theorem setStatus (h : i.Twin j) (status : InstanceStatus) (now : Instant) :
    (i.setStatus status now).Twin (j.setStatus status now) := by
  obtain ⟨_, _, _, _, rfl⟩ := h
  exact ⟨_, _, _, _, rfl⟩

theorem waiting (h : i.Twin j) (wait wait' : Option Wait) :
    Twin { i with waitingFor := wait } { j with waitingFor := wait' } := by
  obtain ⟨_, _, _, _, rfl⟩ := h
  exact ⟨_, _, _, _, rfl⟩

theorem fail (h : i.Twin j) (error friendly : String) (now : Instant) :
    (i.fail error friendly now).Twin (j.fail error friendly now) := by
  obtain ⟨_, _, _, _, rfl⟩ := h
  exact ⟨_, _, _, _, rfl⟩

theorem rememberChild (h : i.Twin j) (child : Instance) (nodeId : String) :
    (i.rememberChild child nodeId).Twin (j.rememberChild child nodeId) := by
  obtain ⟨status, wait, time, version, rfl⟩ := h
  refine ⟨status, wait, time, version, ?_⟩
  unfold Instance.rememberChild standing
  dsimp only
  split
  · rfl
  · rfl

theorem takeOver (h : i.Twin j) (child : Instance) (nodeId : String) (link : ChildLink) :
    (Engine.takeOver i child nodeId link).Twin (Engine.takeOver j child nodeId link) := by
  obtain ⟨_, _, _, _, rfl⟩ := h
  exact ⟨_, _, _, _, rfl⟩

end Twin
end Instance

theorem Alike.time {names : Nat → String} {i j : Instance} {w w' : World}
    (h : Alike names i j w w') (env : Env) : env.time w' = env.time w :=
  congrArg env.epoch.addNanos h.ticks

namespace Engine
variable {env : Env} {launcher : Launcher} {names : Nat → String} {d : Definition} {n : Node}
  {o : Outcome} {i j k l : Instance} {w w' u v : World} {steps steps' : Nat} {id : String}
  {targets pending : List String}

/-! ## ends -/

/-- Two runs store records under one id that say the same. -/
def SameResult (id : String) (x y : Except EngineError Instance × World) : Prop :=
  ∃ i j, x.1 = .ok i ∧ y.1 = .ok j ∧ Has id i x.2 ∧ Has id j y.2 ∧ i.SameFate j

theorem persistStatus_sameResult (h : Alike names i j w w') (hk : k.id = i.id)
    (hkv : i.version = k.version) (hlv : j.version = l.version) (ht : k.Twin l)
    (hs : l.status = k.status) :
    SameResult i.id (runFrom (persistStatus env k) w) (runFrom (persistStatus env l) w') := by
  have hl : l.id = i.id := ht.id.trans hk
  have hleft : w.store.getInstance? k.id = some i := hk ▸ h.left
  have hright : w'.store.getInstance? l.id = some j := hl ▸ h.right
  rw [runFrom_persistStatus env hleft hkv, runFrom_persistStatus env hright hlv]
  exact ⟨_, _, rfl, rfl, World.getInstance?_put_self hk, World.getInstance?_put_self hl,
    (ht.written _ _).sameFate hs⟩

theorem failInstance_sameResult (h : Alike names i j w w') (hk : k.id = i.id)
    (hkv : i.version = k.version) (hlv : j.version = l.version) (ht : k.Twin l) (error : String) :
    SameResult i.id (runFrom (failInstance env k error) w)
      (runFrom (failInstance env l error) w') := by
  show SameResult i.id
    (runFrom (persistStatus env (k.fail error (friendlyMessage error) (env.time w))) w)
    (runFrom (persistStatus env (l.fail error (friendlyMessage error) (env.time w'))) w')
  rw [h.time env]
  exact persistStatus_sameResult h hk hkv hlv (ht.fail _ _ _) rfl

theorem enterStatus_sameResult (h : Alike names i j w w') (ht : i.Twin j)
    (status : InstanceStatus) : SameResult i.id (runFrom (enterStatus env i status) w)
      (runFrom (enterStatus env j status) w') := by
  show SameResult i.id (runFrom (persistStatus env (i.setStatus status (env.time w))) w)
    (runFrom (persistStatus env (j.setStatus status (env.time w'))) w')
  rw [h.time env]
  exact persistStatus_sameResult h rfl rfl rfl (ht.setStatus _ _) rfl

theorem park_sameResult (h : Alike names i j w w') (ht : i.Twin j) (o : Outcome) :
    SameResult i.id (runFrom (park env i o) w) (runFrom (park env j o) w') := by
  show SameResult i.id
    (runFrom (persistStatus env
      { i.setStatus .waiting (env.time w) with waitingFor := o.wait }) w)
    (runFrom (persistStatus env
      { j.setStatus .waiting (env.time w') with waitingFor := o.wait }) w')
  rw [h.time env]
  exact persistStatus_sameResult h rfl rfl rfl ((ht.setStatus _ _).waiting _ _) rfl

/-! ## nodes -/

theorem runNode_twin (hl : ∀ r, Agrees (Alike env.idName i j) Unconditional (launcher r))
    (h : Alike env.idName i j w w') (ht : i.Twin j) (n : Node) :
    ∃ o k l u v, runFrom (runNode env launcher i n) w = (.ok (o, k), u) ∧
      runFrom (runNode env launcher j n) w' = (.ok (o, l), v) ∧ Alike env.idName k l u v ∧
      k.Twin l ∧ k.id = i.id := by
  obtain ⟨status, wait, time, version, rfl⟩ := ht
  generalize hj : i.standing status wait time version = j at *
  have hbegun : Alike env.idName i j (begun env i n w) (begun env j n w') :=
    h.reads {} {}
  have hnode := node_mirrors hl { i with currentNodeId := some n.id } n
    (sessionOf env i.vars (begun env i n w)) (sessionOf env i.vars (begun env j n w'))
    ⟨rfl, rfl, hbegun⟩
  have hsame : (nodeRun env launcher j n w').1 = (nodeRun env launcher i n w).1 := by
    subst hj
    exact hnode.1
  have hrelated : SessionsAlike env.idName i j (nodeRun env launcher i n w).2
      (nodeRun env launcher j n w').2 := by
    subst hj
    exact hnode.2
  have hid : j.id = i.id := by
    rw [← hj]
    rfl
  have hended : Alike env.idName i j (ended env launcher i n w) (ended env launcher j n w') :=
    hrelated.worlds.reads {} {}
  have hrecord : (recorded env launcher i n w).Twin (recorded env launcher j n w') := by
    subst hj
    refine ⟨status, wait, time, version, ?_⟩
    unfold recorded
    rw [hsame, hrelated.vars, hbegun.time env, hrelated.worlds.time env]
    rfl
  have hright := runFrom_runNode env launcher j n (hid.symm ▸ hended.right)
  rw [hsame] at hright
  exact ⟨_, _, _, _, _, runFrom_runNode env launcher i n hended.left, hright,
    hended.putOwn rfl hid h.leftAlive h.rightAlive, hrecord.written _ _, rfl⟩

/-- what two walks do next -/
inductive SameNext (names : Nat → String) (id : String) :
    Except EngineError Next × World → Except EngineError Next × World → Prop
  | visit (targets : List String) {k l : Instance} {u v : World} (h : Alike names k l u v)
    (ht : k.Twin l) (hid : k.id = id) :
    SameNext names id (.ok (.visit targets k), u) (.ok (.visit targets l), v)
  | stop {k l : Instance} {u v : World} (hk : Has id k u) (hl : Has id l v) (h : k.SameFate l) :
    SameNext names id (.ok (.stop k), u) (.ok (.stop l), v)

theorem SameResult.stop {x y : Run EngineError Instance}
    (h : SameResult id (runFrom x w) (runFrom y w')) :
    SameNext names id (runFrom (do return .stop (← x) : Run EngineError Next) w)
      (runFrom (do return .stop (← y) : Run EngineError Next) w') := by
  obtain ⟨k, l, hx, hy, hk, hl, hsame⟩ := h
  rw [runFrom_bind_ok (Prod.ext hx rfl), runFrom_bind_ok (Prod.ext hy rfl)]
  exact .stop hk hl hsame

theorem runFrom_reconcile_stopped {child : Instance} {link : ChildLink}
    (hf : finishedChild? w.store o = some (child, link)) (hc : child.status ≠ .completed)
    (hk : runFrom (failInstance env (i.rememberChild child link.parentNodeId)
      (childFailure child)) w = (.ok k, u)) :
    runFrom (reconcile env i n o) w = (.ok (some (.stopped k)), u) := by
  have happly : runFrom (applyChild env i n child link) w = (.ok (.stopped k), u) := by
    unfold applyChild
    rw [if_neg hc]
    exact runFrom_bind_ok hk _
  rw [runFrom_reconcile_finished hf, runFrom_bind_ok happly]
  rfl

/-- what is next behind a node that may have a child -/
theorem reconcile_sameNext (h : Alike env.idName i j w w') (ht : i.Twin j) (n : Node) (o : Outcome)
    (targets : List String) :
    SameNext env.idName i.id
      (runFrom (do
        match ← reconcile env i n o with
        | some (.goesOn i) => return .visit targets i
        | some (.stopped i) => return .stop i
        | none => return .stop (← park env i o) : Run EngineError Next) w)
      (runFrom (do
        match ← reconcile env j n o with
        | some (.goesOn j) => return .visit targets j
        | some (.stopped j) => return .stop j
        | none => return .stop (← park env j o) : Run EngineError Next) w') := by
  have hright : w'.store.getInstance? j.id = some j := ht.id.symm ▸ h.right
  have hsame := finishedChild?_alike h o
  cases hf : finishedChild? w.store o with
  | none =>
    rw [runFrom_bind_ok (runFrom_reconcile_unfinished hf),
      runFrom_bind_ok (runFrom_reconcile_unfinished (hsame.trans hf))]
    exact (park_sameResult h ht o).stop
  | some finished =>
    obtain ⟨child, link⟩ := finished
    have hk := Instance.SameOrigin.rememberChild i child link.parentNodeId
    have hl := Instance.SameOrigin.rememberChild j child link.parentNodeId
    have htwin := ht.rememberChild child link.parentNodeId
    by_cases hc : child.status = .completed
    · rw [runFrom_bind_ok (runFrom_reconcile_goesOn h.left hf hc),
        runFrom_bind_ok (runFrom_reconcile_goesOn hright (hsame.trans hf) hc)]
      refine .visit targets (h.putOwn hk.id (hl.id.trans ht.id) ?_ ?_)
        ((htwin.takeOver child n.id link).written _ _) hk.id
      · exact (congrArg _ (rememberChild_status i child link.parentNodeId)).trans h.leftAlive
      · exact (congrArg _ (rememberChild_status j child link.parentNodeId)).trans h.rightAlive
    · have hfails : SameResult i.id
          (runFrom (failInstance env (i.rememberChild child link.parentNodeId)
            (childFailure child)) w)
          (runFrom (failInstance env (j.rememberChild child link.parentNodeId)
            (childFailure child)) w') :=
        failInstance_sameResult h hk.id (rememberChild_version i child link.parentNodeId).symm
          (rememberChild_version j child link.parentNodeId).symm htwin (childFailure child)
      obtain ⟨k, l, hx, hy, hend, hend', hfate⟩ := hfails
      rw [runFrom_bind_ok (runFrom_reconcile_stopped hf hc (Prod.ext hx rfl)),
        runFrom_bind_ok (runFrom_reconcile_stopped (hsame.trans hf) hc (Prod.ext hy rfl))]
      exact .stop hend hend' hfate

theorem afterNode_sameNext (h : Alike env.idName i j w w') (ht : i.Twin j) (d : Definition)
    (n : Node) (o : Outcome) : SameNext env.idName i.id (runFrom (afterNode env d i n o) w)
      (runFrom (afterNode env d j n o) w') := by
  have hdone : SameNext env.idName i.id
      (runFrom (if n.kind = .finish then return .visit [] i
        else return .visit (d.nextNodes n o.route) i : Run EngineError Next) w)
      (runFrom (if n.kind = .finish then return .visit [] j
        else return .visit (d.nextNodes n o.route) j : Run EngineError Next) w') := by
    split
    · exact .visit _ h ht rfl
    · exact .visit _ h ht rfl
  have hpark : SameNext env.idName i.id
      (runFrom (do return .stop (← park env i o) : Run EngineError Next) w)
      (runFrom (do return .stop (← park env j o) : Run EngineError Next) w') :=
    (park_sameResult h ht o).stop
  unfold afterNode
  cases o.status with
  | completed | breakLoop | continueLoop => exact hdone
  | failed => exact (failInstance_sameResult h rfl rfl rfl ht _).stop
  | waiting =>
    dsimp only
    split
    · exact reconcile_sameNext h ht n o _
    · exact hpark

/-! ## walks -/

/-- the walk behind a node that has been run -/
def walkBehind (env : Env) (launcher : Launcher) (d : Definition) (steps : Nat)
    (pending : List String) (i : Instance) (n : Node) (o : Outcome) : Run EngineError Instance := do
  match ← afterNode env d i n o with
  | .visit targets i => walk env launcher d steps (targets ++ pending) i
  | .stop i => return i

/-- A walk that meets another node when its steps are used up. -/
inductive Overruns (env : Env) (launcher : Launcher) (d : Definition) :
    Nat → List String → Instance → World → Prop
  | now {id : String} {pending : List String} {i : Instance} {w : World} {n : Node}
    (hn : d.findNode? id = some n) : Overruns env launcher d 0 (id :: pending) i w
  | later {steps : Nat} {id : String} {targets pending : List String} {i j k : Instance}
    {u v w : World} {n : Node} {o : Outcome} (hn : d.findNode? id = some n)
    (hnode : runFrom (runNode env launcher i n) w = (.ok (o, j), u))
    (hafter : runFrom (afterNode env d j n o) u = (.ok (.visit targets k), v))
    (h : Overruns env launcher d steps (targets ++ pending) k v) :
    Overruns env launcher d (steps + 1) (id :: pending) i w

theorem walk_nil : walk env launcher d steps [] i = enterStatus env i .completed := by
  cases steps <;> rfl

theorem walk_of_node (hn : d.findNode? id = some n) :
    walk env launcher d (steps + 1) (id :: pending) i =
      (runNode env launcher i n >>= fun ran =>
        walkBehind env launcher d steps pending ran.2 n ran.1) := by
  conv => lhs; unfold walk
  rw [hn]
  rfl

theorem walkBehind_sameResult (h : Alike env.idName i j w w') (ht : i.Twin j)
    (hwalk : ∀ targets k l u v, runFrom (afterNode env d i n o) w = (.ok (.visit targets k), u) →
      Alike env.idName k l u v → k.Twin l → k.id = i.id → SameResult i.id
        (runFrom (walk env launcher d steps (targets ++ pending) k) u)
        (runFrom (walk env launcher d steps' (targets ++ pending) l) v)) :
    SameResult i.id (runFrom (walkBehind env launcher d steps pending i n o) w)
      (runFrom (walkBehind env launcher d steps' pending j n o) w') := by
  have hnext := afterNode_sameNext h ht d n o
  unfold walkBehind
  generalize hx : runFrom (afterNode env d i n o) w = x at hnext
  generalize hy : runFrom (afterNode env d j n o) w' = y at hnext
  cases hnext with
  | visit targets halike htwin hid =>
    rw [runFrom_bind_ok hx, runFrom_bind_ok hy]
    exact hwalk targets _ _ _ _ hx halike htwin hid
  | stop hk hl hsame =>
    rw [runFrom_bind_ok hx, runFrom_bind_ok hy]
    exact ⟨_, _, rfl, rfl, hk, hl, hsame⟩

/-- **A walk goes the same way from a twin.**  It may have more steps there; the one that is
followed must not overrun.  The induction is on the steps that are left. -/
theorem walk_sameResult
    (hl : ∀ i j r, Agrees (Alike env.idName i j) Unconditional (launcher r))
    (hsteps : steps ≤ steps') (h : Alike env.idName i j w w') (ht : i.Twin j)
    (hover : ¬ Overruns env launcher d steps pending i w) :
    SameResult i.id (runFrom (walk env launcher d steps pending i) w)
      (runFrom (walk env launcher d steps' pending j) w') := by
  induction steps generalizing steps' pending i j w w' with
  | zero =>
    cases pending with
    | nil =>
      rw [walk_nil, walk_nil]
      exact enterStatus_sameResult h ht _
    | cons id pending =>
      cases hn : d.findNode? id with
      | none =>
        rw [walk_of_missing hn, walk_of_missing hn]
        exact failInstance_sameResult h rfl rfl rfl ht _
      | some n => exact absurd (.now hn) hover
  | succ steps ih =>
    cases pending with
    | nil =>
      rw [walk_nil, walk_nil]
      exact enterStatus_sameResult h ht _
    | cons id pending =>
      cases hn : d.findNode? id with
      | none =>
        rw [walk_of_missing hn, walk_of_missing hn]
        exact failInstance_sameResult h rfl rfl rfl ht _
      | some n =>
        obtain ⟨steps', rfl⟩ : ∃ more, steps' = more + 1 := ⟨steps' - 1, by omega⟩
        obtain ⟨o, k, l, u, v, hi, hj, halike, htwin, hid⟩ := runNode_twin (hl i j) h ht n
        rw [walk_of_node hn, walk_of_node hn, runFrom_bind_ok hi, runFrom_bind_ok hj, ← hid]
        refine walkBehind_sameResult halike htwin fun targets k' l' u' v' hafter h' ht' hid' => ?_
        rw [← hid']
        exact ih (Nat.le_of_succ_le_succ hsteps) h' ht' fun hlater =>
          hover (.later hn hi hafter hlater)

end Engine
end Workflows
