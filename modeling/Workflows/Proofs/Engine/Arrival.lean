import Workflows.Proofs.Engine.Resumption
import Workflows.Proofs.Engine.Telling
import Workflows.Proofs.Engine.Twin

/-!
# The arrival of an outcome

The outcome of a child reaches its parent in one of three ways.  The child has finished before the
walk of its parent goes on behind the node, and it goes on at once; or the child finishes while the
parent waits; or the child finishes while the parent is held, and the parent is resumed behind the
node.

* `Arrived`                                 a parent and its finished child, and what joins them
* `StandsStill`                             the parent as it waits or is held
* `atOnce`, `whileWaiting`, `whilePaused`   the three ways

Main statement: the parent comes to the same end in all of them (`arrivals_agree`).
-/

namespace Workflows.Engine
variable {env : Env} {names : Nat → String} {i j p q r child : Instance} {link : ChildLink}
  {d : Definition} {n : Node} {o : Outcome} {w w' u : World} {nodeId : String} {steps : Nat}

/-! ## two records for one instance -/

theorem Orderly.alike_put (ho : Orderly names (w.put i)) (hid : j.id = i.id)
    (hi : i.status.isTerminal = false) (hj : j.status.isTerminal = false) :
    Alike names i j (w.put i) (w.put j) := by
  have hstored : (w.put i).store.getInstance? i.id = some i := World.getInstance?_put_self rfl
  refine ⟨hstored, World.getInstance?_put_self hid, fun id hne => ?_, rfl, rfl, rfl, rfl,
    fun m hm he => ?_, hi, hj⟩
  · rw [World.getInstance?_put_of_ne (hid.symm ▸ hne), World.getInstance?_put_of_ne hne]
  · have hnone := ho.fresh.unstored m hm
    rw [he, hstored] at hnone
    cases hnone

theorem Orderly.alike (ho : Orderly names w) (h : Alike names i j w w') (hid : j.id = i.id) :
    Orderly names w' := by
  refine ⟨⟨ho.fresh.distinct, fun m hm => ?_, fun m hm => ?_⟩, fun id k hk => ?_⟩
  · rw [h.ids] at hm
    rw [h.others _ (h.unnamed m hm)]
    exact ho.fresh.unstored m hm
  · rw [h.ids] at hm
    rw [h.getLink?]
    exact ho.fresh.unlinked m hm
  · by_cases hi : id = i.id
    · subst hi
      cases Option.some.inj (h.right.symm.trans hk)
      exact hid
    · rw [h.others id hi] at hk
      exact ho.keyed id k hk

/-! ## a parent that is told -/

theorem runFrom_finish_told (hw : WaitedFor w.store child p link)
    (hwake : runFrom (wakeParent env link child) (w.locked link.parentId) = (.ok j, u)) :
    runFrom (finish env child) w =
      runFrom (settle env w.store.instances.length j) (u.unlocked link.parentId) := by
  have hlocked : runFrom (lockedWake env link child) w =
      (.ok (some j), u.unlocked link.parentId) := by
    rw [runFrom_lockedWake hw, hwake]
    rfl
  have hround : Round env child w := settle_round hw.stored
  rw [runFrom_finish]
  cases hround with
  | ended hnone => exact absurd hw (hnone _ _)
  | @told parent link' hw' hrun =>
    have hlink : link' = link := Option.some.inj (hw'.linked.symm.trans hw.linked)
    subst hlink
    rw [hrun, runFrom_bind_ok hlocked]

/-- The record of a parent that is told is its record in the end, whoever is told after it. -/
theorem finish_has (ho : Orderly env.idName w) (hw : WaitedFor w.store child p link)
    (hwake : runFrom (wakeParent env link child) (w.locked link.parentId) = (.ok j, u))
    (hj : Has link.parentId j u) : Has link.parentId j (runFrom (finish env child) w).2 := by
  have horderly : Orderly env.idName (u.unlocked link.parentId) := by
    rcases wakeParent_acts (ho.locked link.parentId) (hw.congr rfl) with
      ⟨e, he, _⟩ | ⟨k, v, hk, hdeed, _⟩
    · rw [hwake] at he
      cases he
    · rw [hwake] at hk
      cases hk
      exact (hdeed.around_quiet (Quiet.locked w _) (Quiet.unlocked _ _)).orderly ho
  have hid : j.id = link.parentId := horderly.keyed _ _ hj
  have hj' : (u.unlocked link.parentId).store.getInstance? j.id = some j := hid.symm ▸ hj
  rw [runFrom_finish_told hw hwake]
  exact (settle_climbs _ horderly hj').has_start hj

/-! ## the three ways -/

/-- A parent behind a subprocess node, whose child has finished: its record as it walks, and what
joins it to the child. -/
structure Arrived (names : Nat → String) (w : World) (p child : Instance) (link : ChildLink)
    (d : Definition) (n : Node) (o : Outcome) : Prop where
  orderly : Orderly names (w.put p)
  running : p.status = .running
  definition : definitionOf? w.store p = some d
  node : d.findNode? n.id = some n
  kind : n.kind = .subprocess
  waiting : o.status = .waiting
  awaited : WaitsForChild (w.put p).store p n o child link
  terminal : child.status.isTerminal = true
  isChild : child.parentId = some p.id

/-- the record of the same parent, if the child was not in time -/
structure StandsStill (p : Instance) (o : Outcome) (status : InstanceStatus) (q : Instance) :
    Prop where
  twin : p.Twin q
  status : q.status = status
  wait : q.waitingFor = o.wait

/-- the walk of the parent goes on at once, without other pending nodes -/
def atOnce (env : Env) (d : Definition) (steps : Nat) (p : Instance) (n : Node) (o : Outcome)
    (w : World) : World :=
  (runFrom (walkBehind env (start env) d steps [] p n o) (w.put p)).2

/-- this walk meets another node when its steps are used up -/
def OverrunsBehind (env : Env) (d : Definition) (steps : Nat) (p : Instance) (n : Node)
    (o : Outcome) (w : World) : Prop :=
  ∃ targets i u, runFrom (afterNode env d p n o) (w.put p) = (.ok (.visit targets i), u) ∧
    Overruns env (start env) d steps targets i u

/-- It is the end of a walk that begins with the node of the child. -/
theorem walk_atOnce (hn : d.findNode? n.id = some n)
    (hnode : runFrom (runNode env (start env) i n) u = (.ok (o, p), w.put p)) :
    (runFrom (walk env (start env) d (steps + 1) [n.id] i) u).2 = atOnce env d steps p n o w := by
  rw [walk_of_node hn, runFrom_bind_ok hnode]
  rfl

/-- the child finishes while its parent waits -/
def whileWaiting (env : Env) (child q : Instance) (w : World) : World :=
  (runFrom (finish env child) (w.put q)).2

/-- the child finishes while its parent is held; where it has completed, the parent is resumed -/
def whilePaused (env : Env) (notedAt : Instant) (child : Instance) (n : Node) (q : Instance)
    (w : World) : World :=
  let told := (runFrom (finish { env with epoch := notedAt } child) (w.put q)).2
  if child.status = .completed then (runFrom (resume env q.id n.id none) told).2 else told

namespace Arrived
variable {status : InstanceStatus}

theorem alike (h : Arrived names w p child link d n o) (hq : p.Twin q)
    (hs : q.status.isTerminal = false) : Alike names p q (w.put p) (w.put q) :=
  h.orderly.alike_put hq.id (by rw [h.running]; rfl) hs

theorem waitedFor (h : Arrived names w p child link d n o) (hq : StandsStill p o status q)
    (hs : status.isParked = true) : WaitedFor (w.put q).store child q link := by
  have hother : child.id ≠ p.id := h.awaited.id ▸ h.awaited.other
  have hne : child.id ≠ q.id := hq.twin.id.symm ▸ hother
  refine ⟨?_, h.terminal, ?_, ?_, ?_, ?_⟩
  · rw [World.getInstance?_put_of_ne hne, ← World.getInstance?_put_of_ne (w := w) hother,
      h.awaited.id]
    exact h.awaited.stored
  · rw [h.isChild]
    rfl
  · rw [h.awaited.id]
    exact h.awaited.linked
  · unfold Instance.isParkedOn
    rw [hq.status, hs, hq.wait, h.awaited.wait, h.awaited.id]
    exact decide_eq_true rfl
  · rw [h.awaited.parent]
    exact World.getInstance?_put_self hq.twin.id

theorem linkedNode (h : Arrived names w p child link d n o) :
    d.findNode? link.parentNodeId = some n := by
  rw [h.awaited.node]
  exact h.node

theorem parentId (h : Arrived names w p child link d n o) (hq : p.Twin q) : q.id = link.parentId :=
  hq.id.trans h.awaited.parent.symm

theorem readsParent (h : Arrived names w p child link d n o) (hq : p.Twin q) :
    ((w.put q).locked link.parentId).store.getInstance? link.parentId = some q ∧
      definitionOf? ((w.put q).locked link.parentId).store q = some d := by
  refine ⟨World.getInstance?_put_self (h.parentId hq), ?_⟩
  obtain ⟨_, _, _, _, rfl⟩ := hq
  exact h.definition

theorem runFrom_afterNode (h : Arrived names w p child link d n o) (v : World) :
    runFrom (afterNode env d p n o) v = runFrom (do
      match ← reconcile env p n o with
      | some (.goesOn i) => return .visit (d.nextNodes n none) i
      | some (.stopped i) => return .stop i
      | none => return .stop (← park env p o) : Run EngineError Next) v := by
  unfold afterNode
  rw [h.waiting]
  exact congrArg (runFrom · v) (if_pos h.kind)

/-! ### a child that has not completed -/

theorem atOnce_failed (h : Arrived env.idName w p child link d n o) (steps : Nat)
    (hc : child.status ≠ .completed) : ∃ now, Has p.id
      ((failedWith p child link now).written now) (atOnce env d steps p n o w) := by
  have hstored : (w.put p).store.getInstance? p.id = some p := World.getInstance?_put_self rfl
  have hafter : runFrom (afterNode env d p n o) (w.put p) =
      (.ok (.stop ((failedWith p child link (env.time (w.put p))).written (env.time (w.put p)))),
        (w.put p).announce
          ((failedWith p child link (env.time (w.put p))).written (env.time (w.put p)))
          (env.time (w.put p))) := by
    rw [h.runFrom_afterNode,
      runFrom_bind_ok (runFrom_reconcile_failed env hstored h.awaited h.terminal hc)]
    rfl
  refine ⟨env.time (w.put p), ?_⟩
  unfold atOnce walkBehind
  rw [runFrom_bind_ok hafter]
  exact World.getInstance?_put_self (sameOrigin_failedWith p child link (env.time (w.put p))).id

theorem told_failed (h : Arrived env.idName w p child link d n o) (hq : StandsStill p o status q)
    (hs : status.isParked = true) (hc : child.status ≠ .completed) : ∃ now, Has p.id
      ((failedWith q child link now).written now) (runFrom (finish env child) (w.put q)).2 := by
  have halive : q.status.isTerminal = false := by
    rw [hq.status]
    cases status <;> first | rfl | cases hs
  have ho := h.orderly.alike (h.alike hq.twin halive) hq.twin.id
  have hid : q.id = link.parentId := h.parentId hq.twin
  obtain ⟨hparent, hdefinition⟩ := h.readsParent hq.twin
  have hwake : runFrom (wakeParent env link child) ((w.put q).locked link.parentId) =
      (.ok ((failedWith q child link (env.time (w.put q))).written (env.time (w.put q))),
        ((w.put q).locked link.parentId).announce
          ((failedWith q child link (env.time (w.put q))).written (env.time (w.put q)))
          (env.time (w.put q))) := by
    rw [runFrom_wakeParent hparent hdefinition h.linkedNode,
      runFrom_bind_ok (runFrom_applyChild_failed env (hid ▸ hparent) hc)]
    rfl
  refine ⟨env.time (w.put q), ?_⟩
  rw [← h.awaited.parent]
  refine finish_has ho (h.waitedFor hq hs) hwake (World.getInstance?_put_self ?_)
  exact (sameOrigin_failedWith q child link (env.time (w.put q))).id.trans hid

/-! ### a child that has completed -/

def taken (env : Env) (w : World) (p child : Instance) (link : ChildLink) : Instance :=
  (withOutputs p child link).written (env.time (w.put p))

theorem taken_id : (taken env w p child link).id = p.id := (sameOrigin_withOutputs p child link).id

theorem taken_alive (h : Arrived names w p child link d n o) :
    (taken env w p child link).status.isTerminal = false := by
  show (p.rememberChild child link.parentNodeId).status.isTerminal = false
  rw [rememberChild_status, h.running]
  rfl

theorem taken_done (h : Arrived names w p child link d n o) :
    Dict.insert (taken env w p child link).nodeStatuses n.id .completed =
      (taken env w p child link).nodeStatuses := by
  have hstatuses : (taken env w p child link).nodeStatuses =
      Dict.insert (p.rememberChild child link.parentNodeId).nodeStatuses n.id .completed := by
    rw [← h.awaited.node]
    rfl
  rw [hstatuses, Dict.insert_insert_self]

theorem taken_twin (hq : p.Twin q) : (taken env w p child link).Twin (withOutputs q child link) :=
  (Instance.Twin.of_written _ _).symm.trans ((hq.rememberChild _ _).takeOver _ _ _)

theorem runFrom_afterNode_completed (h : Arrived env.idName w p child link d n o)
    (hc : child.status = .completed) : runFrom (afterNode env d p n o) (w.put p) =
      (.ok (.visit (d.nextNodes n none) (taken env w p child link)),
        (w.put p).put (taken env w p child link)) := by
  have hstored : (w.put p).store.getInstance? p.id = some p := World.getInstance?_put_self rfl
  rw [h.runFrom_afterNode,
    runFrom_bind_ok (runFrom_reconcile_completed env hstored h.awaited h.terminal hc)]
  rfl

theorem atOnce_completed (h : Arrived env.idName w p child link d n o) (steps : Nat)
    (hc : child.status = .completed) :
    atOnce env d steps p n o w = (runFrom (walk env (start env) d steps (d.nextNodes n none)
      (taken env w p child link)) ((w.put p).put (taken env w p child link))).2 := by
  unfold atOnce walkBehind
  rw [runFrom_bind_ok (h.runFrom_afterNode_completed hc)]
  simp only [List.append_nil]

theorem goingOn_twin (h : Arrived names w p child link d n o)
    (ht : (taken env w p child link).Twin r) (now : Instant) :
    (taken env w p child link).Twin ((goingOn r n.id now).written now) := by
  have hdone : Dict.insert (taken env w p child link).nodeStatuses n.id .completed =
      (taken env w p child link).nodeStatuses := h.taken_done
  generalize taken env w p child link = k at ht hdone ⊢
  obtain ⟨_, _, _, version, rfl⟩ := ht
  refine ⟨.running, none, now, version + 1, ?_⟩
  unfold goingOn
  show Instance.written { k.standing _ _ _ _ with
    nodeStatuses := Dict.insert k.nodeStatuses n.id .completed } _ = _
  rw [hdone]
  rfl

/-- An instance that goes on behind the node, from a twin of the record with which the parent goes
on at once, goes the same way. -/
theorem continueAfter_sameFate {stored : Instance} (h : Arrived env.idName w p child link d n o)
    (hc : child.status = .completed) (hsteps : steps ≤ env.settings.maxStepsPerTraversal)
    (hover : ¬ OverrunsBehind env d steps p n o w) (ha : Alike env.idName p stored (w.put p) w')
    (ht : (taken env w p child link).Twin r) (hv : stored.version = r.version) :
    ∃ a b, Has p.id a (atOnce env d steps p n o w) ∧
      (runFrom (continueAfter env d r n n.id none) w').1 = .ok b ∧
      Has p.id b (runFrom (continueAfter env d r n n.id none) w').2 ∧ a.SameFate b := by
  have hr : r.id = p.id := ht.id.trans taken_id
  have hstored : w'.store.getInstance? r.id = some stored := hr ▸ ha.right
  have htwin := h.goingOn_twin ht (env.time w')
  have hput := ha.putRight (l := (goingOn r n.id (env.time w')).written (env.time w')) hr rfl
  have halike : Alike env.idName (taken env w p child link)
      ((goingOn r n.id (env.time w')).written (env.time w'))
      ((w.put p).put (taken env w p child link)) (goneOn env r n.id w') :=
    (hput.putLeft taken_id h.taken_alive).reads {} {}
  have hends : SameResult (taken env w p child link).id
      (runFrom (walk env (start env) d steps (d.nextNodes n none) (taken env w p child link))
        ((w.put p).put (taken env w p child link)))
      (runFrom (continueAfter env d r n n.id none) w') := by
    rw [runFrom_continueAfter hstored hv]
    exact walk_sameResult (fun i j r => start_agrees r) hsteps halike htwin fun hlater =>
      hover ⟨_, _, _, h.runFrom_afterNode_completed hc, hlater⟩
  rw [taken_id] at hends
  obtain ⟨a, b, _, hb, hhas, hhas', hfate⟩ := hends
  exact ⟨a, b, h.atOnce_completed steps hc ▸ hhas, hb, hhas', hfate⟩

theorem runFrom_wakeParent_waiting (h : Arrived env.idName w p child link d n o)
    (hc : child.status = .completed) (hq : StandsStill p o .waiting q) :
    runFrom (wakeParent env link child) ((w.put q).locked link.parentId) =
      runFrom (continueAfter env d (withOutputs q child link) n n.id none)
        ((w.put q).locked link.parentId) := by
  have hstatus : (withOutputs q child link).status = .waiting :=
    (rememberChild_status q child link.parentNodeId).trans hq.status
  have hgoing : (withOutputs q child link).status ≠ .paused := by
    rw [hstatus]
    decide
  obtain ⟨hparent, hdefinition⟩ := h.readsParent hq.twin
  rw [runFrom_wakeParent hparent hdefinition h.linkedNode,
    runFrom_bind_ok (runFrom_applyChild_completed env q h.awaited.node hc _)]
  show runFrom (if (withOutputs q child link).status = .paused then _ else _ :
    Run EngineError Instance) _ = _
  rw [if_neg hgoing, h.awaited.node]

/-! ### a parent that is held -/

theorem noted_status (hq : StandsStill p o .paused q) : (noted q child link).status = .paused :=
  (rememberChild_status q child link.parentNodeId).trans hq.status

theorem noted_id (hq : p.Twin q) : (noted q child link).id = p.id :=
  (sameOrigin_noted q child link).id.trans hq.id

theorem taken_twin_noted (hq : p.Twin q) (now : Instant) :
    (taken env w p child link).Twin ((noted q child link).written now) := by
  have hnoted : (withOutputs q child link).Twin (noted q child link) := ⟨_, _, _, _, rfl⟩
  exact ((taken_twin hq).trans hnoted).trans (Instance.Twin.of_written _ now)

theorem definitionOf?_noted (h : Arrived names w p child link d n o) (hq : p.Twin q)
    (now : Instant) : definitionOf? (w.put q).store ((noted q child link).written now) = some d :=
  (((sameOrigin_noted q child link).written now).definitionOf? _).trans (h.readsParent hq).2

/-- the world in which the parent has noted the outcome of its child -/
def afterNote (env : Env) (child q : Instance) (link : ChildLink) (w : World) : World :=
  (((w.put q).locked link.parentId).put
    ((noted q child link).written (env.time (w.put q)))).unlocked link.parentId

theorem runFrom_noted (h : Arrived env.idName w p child link d n o)
    (hc : child.status = .completed) (hq : StandsStill p o .paused q) :
    runFrom (finish env child) (w.put q) = (.ok (), afterNote env child q link w) := by
  have hstatus : (withOutputs q child link).status = .paused := noted_status hq
  have hid : (noted q child link).id = link.parentId :=
    (noted_id hq.twin).trans h.awaited.parent.symm
  obtain ⟨hparent, hdefinition⟩ := h.readsParent hq.twin
  have hwake : runFrom (wakeParent env link child) ((w.put q).locked link.parentId) =
      (.ok ((noted q child link).written (env.time (w.put q))),
        ((w.put q).locked link.parentId).put
          ((noted q child link).written (env.time (w.put q)))) := by
    rw [runFrom_wakeParent hparent hdefinition h.linkedNode,
      runFrom_bind_ok (runFrom_applyChild_completed env q h.awaited.node hc _)]
    show runFrom (if (withOutputs q child link).status = .paused then _ else _ :
      Run EngineError Instance) _ = _
    rw [if_pos hstatus]
    exact runFrom_persist env (hid.symm ▸ hparent)
      (rememberChild_version q child link.parentNodeId).symm
  have halive : ((noted q child link).written (env.time (w.put q))).status.isTerminal = false := by
    show (withOutputs q child link).status.isTerminal = false
    rw [hstatus]
    rfl
  rw [runFrom_finish_told (h.waitedFor hq rfl) hwake]
  exact runFrom_settle_of_alive halive _ _

/-- A parent that has noted the outcome, and is resumed, goes the way of a parent that goes on at
once. -/
theorem resume_sameFate {k : Instance} (h : Arrived env.idName w p child link d n o)
    (hc : child.status = .completed) (hsteps : steps ≤ env.settings.maxStepsPerTraversal)
    (hover : ¬ OverrunsBehind env d steps p n o w) (hk : (taken env w p child link).Twin k)
    (hs : k.status = .paused) (ha : Alike env.idName p k (w.put p) u)
    (hd : definitionOf? u.store k = some d) :
    ∃ a b, Has p.id a (atOnce env d steps p n o w) ∧
      Has p.id b (runFrom (resume env p.id n.id none) u).2 ∧ a.SameFate b := by
  have hlocked : Alike env.idName p k (w.put p) (u.locked p.id) :=
    ha.reads {} {}
  obtain ⟨a, b, hleft, hb, -, hfate⟩ := h.continueAfter_sameFate hc hsteps hover hlocked hk rfl
  have ho : Orderly env.idName u := h.orderly.alike ha (hk.id.trans taken_id)
  have hparked : k.status.isParked = true := by
    rw [hs]
    rfl
  exact ⟨a, b, hleft, resume_has ho ⟨ha.right, hparked, hd, h.node⟩ (Prod.ext hb rfl), hfate⟩

theorem alike_afterNote (h : Arrived names w p child link d n o) (hq : StandsStill p o .paused q)
    (env : Env) : Alike names p ((noted q child link).written (env.time (w.put q))) (w.put p)
      (afterNote env child q link w) := by
  have halike := h.alike hq.twin (by rw [hq.status]; rfl)
  have halive : (noted q child link).status.isTerminal = false := by
    rw [noted_status hq]
    rfl
  exact (halike.putRight (l := (noted q child link).written (env.time (w.put q)))
    (noted_id hq.twin) halive).reads {} {}

end Arrived

/-! ## the ways lead to the same end -/

theorem failedWith_sameFate (h : p.Twin q) (now now' : Instant) :
    ((failedWith p child link now).written now).SameFate
      ((failedWith q child link now').written now') := by
  obtain ⟨status, wait, time, version, hq⟩ := h.rememberChild child link.parentNodeId
  unfold failedWith
  rw [hq]
  exact ⟨rfl, rfl, rfl, rfl, rfl, rfl, rfl⟩

theorem whileWaiting_sameFate (h : Arrived env.idName w p child link d n o)
    (hsteps : steps ≤ env.settings.maxStepsPerTraversal)
    (hover : ¬ OverrunsBehind env d steps p n o w) (hq : StandsStill p o .waiting q) :
    ∃ a b, Has p.id a (atOnce env d steps p n o w) ∧ Has p.id b (whileWaiting env child q w) ∧
      a.SameFate b := by
  by_cases hc : child.status = .completed
  · have halike := h.alike hq.twin (by rw [hq.status]; rfl)
    have hlocked : Alike env.idName p q (w.put p) ((w.put q).locked link.parentId) :=
      halike.reads {} {}
    obtain ⟨a, b, ha, hb, hhas, hfate⟩ := h.continueAfter_sameFate hc hsteps hover hlocked
      (Arrived.taken_twin hq.twin) (rememberChild_version q child link.parentNodeId).symm
    have hwake := h.runFrom_wakeParent_waiting hc hq
    have ho := h.orderly.alike halike hq.twin.id
    refine ⟨a, b, ha, ?_, hfate⟩
    rw [← h.awaited.parent] at hhas ⊢
    exact finish_has ho (h.waitedFor hq rfl) (hwake.trans (Prod.ext hb rfl)) hhas
  · obtain ⟨now, ha⟩ := h.atOnce_failed steps hc
    obtain ⟨now', hb⟩ := h.told_failed hq rfl hc
    exact ⟨_, _, ha, hb, failedWith_sameFate hq.twin now now'⟩

theorem whilePaused_sameFate (h : Arrived env.idName w p child link d n o)
    (hsteps : steps ≤ env.settings.maxStepsPerTraversal)
    (hover : ¬ OverrunsBehind env d steps p n o w) (hq : StandsStill p o .paused q)
    (notedAt : Instant) : ∃ a b, Has p.id a (atOnce env d steps p n o w) ∧
      Has p.id b (whilePaused env notedAt child n q w) ∧ a.SameFate b := by
  have h' : Arrived { env with epoch := notedAt }.idName w p child link d n o := h
  by_cases hc : child.status = .completed
  · have hnoted := h'.runFrom_noted hc hq
    have hheld := h.alike_afterNote hq { env with epoch := notedAt }
    obtain ⟨a, b, ha, hb, hfate⟩ := h.resume_sameFate hc hsteps hover
      (Arrived.taken_twin_noted hq.twin _) (Arrived.noted_status hq) hheld
      (h.definitionOf?_noted hq.twin _)
    refine ⟨a, b, ha, ?_, hfate⟩
    unfold whilePaused
    rw [if_pos hc, hnoted, hq.twin.id]
    exact hb
  · obtain ⟨now, ha⟩ := h.atOnce_failed steps hc
    obtain ⟨now', hb⟩ := h'.told_failed hq rfl hc
    refine ⟨_, _, ha, ?_, failedWith_sameFate hq.twin now now'⟩
    unfold whilePaused
    rw [if_neg hc]
    exact hb

/-- **It does not matter in which way the outcome of a child reaches its parent.**  The child has
ended in any way, the parent has no other pending nodes, and its walk does not overrun.  With the
same clock and the same ids to be generated the parent has the same variables, children, states,
errors and log in the end, whether it walks on at once, or is told while it waits, or is told at
some time while it is held and then resumed. -/
theorem arrivals_agree (env : Env) (w : World) (p child : Instance) (link : ChildLink)
    (d : Definition) (n : Node) (o : Outcome) (h : Arrived env.idName w p child link d n o)
    (steps : Nat) (hsteps : steps ≤ env.settings.maxStepsPerTraversal)
    (hover : ¬ OverrunsBehind env d steps p n o w) (q r : Instance)
    (hq : StandsStill p o .waiting q) (hr : StandsStill p o .paused r) (notedAt : Instant) :
    ∃ a b c, Has p.id a (atOnce env d steps p n o w) ∧ Has p.id b (whileWaiting env child q w) ∧
      Has p.id c (whilePaused env notedAt child n r w) ∧ a.SameFate b ∧ a.SameFate c := by
  obtain ⟨a, b, ha, hb, hab⟩ := whileWaiting_sameFate h hsteps hover hq
  obtain ⟨a', c, ha', hc, hac⟩ := whilePaused_sameFate h hsteps hover hr notedAt
  cases Option.some.inj (ha.symm.trans ha')
  exact ⟨a, b, c, ha, hb, hc, hab, hac⟩

namespace Sample

/-- a parent behind the node of its child -/
def walking : Instance := { Instance.create "i" "parent" "system" [] ⟨0, 0⟩ with
  currentNodeId := some "work"
  nodeStatuses := [("begin", .completed), ("work", .waiting)] }

/-- the child, which has completed with an output -/
def finished : Instance :=
  { Instance.create "ii" "child" "subprocess:i" [("x", .str "out")] ⟨0, 0⟩ with
    status := .completed
    parentId := some "i"
    nestingLevel := 1 }

def joined : ChildLink := ⟨"i", "work", "ii", [("y", "x")], false, 1, ⟨0, 0⟩⟩

def caller : Node := ⟨"work", .subprocess, none, .obj [("workflow_id", .str "child")]⟩

def childWait : Outcome := .waiting ⟨.subprocess, "ii", none⟩ none

def arrivedWorld : World := { world with
  store := (world.store.insertInstance finished).insertLink joined
  ids := 2 }

theorem arrived_orderly : Orderly Sample.names (arrivedWorld.put walking) := by
  have hne : ∀ n m, 2 ≤ n → m < 2 → Sample.names n ≠ Sample.names m := by
    intro n m hn hm he
    have := names_injective he
    omega
  have hkeyed : (world.put finished).store.Keyed := keyed_put (fun _ _ h => by cases h) _
  refine ⟨⟨names_injective, fun n hn => ?_, fun n hn => ?_⟩, keyed_put hkeyed _⟩
  · have hi : Sample.names n ≠ walking.id := hne n 0 hn (by decide)
    have hii : Sample.names n ≠ finished.id := hne n 1 hn (by decide)
    rw [World.getInstance?_put_of_ne hi]
    show (world.put finished).store.getInstance? (Sample.names n) = none
    rw [World.getInstance?_put_of_ne hii]
    rfl
  · have hii : Sample.names n ≠ joined.childId := hne n 1 hn (by decide)
    show (world.link joined).store.getLink? (Sample.names n) = none
    rw [World.getLink?_link, if_neg hii]
    rfl

theorem arrived : Arrived Sample.names arrivedWorld walking finished joined Sample.parent caller
    childWait where
  orderly := arrived_orderly
  running := rfl
  definition := rfl
  node := rfl
  kind := rfl
  waiting := rfl
  awaited := ⟨rfl, rfl, rfl, rfl, rfl, rfl, by decide⟩
  terminal := rfl
  isChild := rfl

theorem standsStill (status : InstanceStatus) : StandsStill walking childWait status
    (walking.standing status childWait.wait ⟨0, 0⟩ 1) :=
  ⟨⟨_, _, _, _, rfl⟩, rfl, rfl⟩

theorem arrived_within :
    ¬ OverrunsBehind Sample.env Sample.parent 1 walking caller childWait arrivedWorld := by
  have harrived : Arrived Sample.env.idName arrivedWorld walking finished joined Sample.parent
      caller childWait := arrived
  rintro ⟨targets, i, u, hafter, hlater⟩
  rw [harrived.runFrom_afterNode_completed rfl] at hafter
  cases hafter
  cases hlater

end Sample

theorem arrivals_agree_completed :
    Arrived Sample.env.idName Sample.arrivedWorld Sample.walking Sample.finished Sample.joined
      Sample.parent Sample.caller Sample.childWait ∧
    ∃ a b c,
      Has "i" a (atOnce Sample.env Sample.parent 1 Sample.walking Sample.caller Sample.childWait
        Sample.arrivedWorld) ∧
      Has "i" b (whileWaiting Sample.env Sample.finished
        (Sample.walking.standing .waiting Sample.childWait.wait ⟨0, 0⟩ 1) Sample.arrivedWorld) ∧
      Has "i" c (whilePaused Sample.env ⟨1, 0⟩ Sample.finished Sample.caller
        (Sample.walking.standing .paused Sample.childWait.wait ⟨0, 0⟩ 1) Sample.arrivedWorld) ∧
      a.SameFate b ∧ a.SameFate c :=
  ⟨Sample.arrived, arrivals_agree Sample.env Sample.arrivedWorld Sample.walking Sample.finished
    Sample.joined Sample.parent Sample.caller Sample.childWait Sample.arrived 1 (by decide)
    Sample.arrived_within _ _ (Sample.standsStill .waiting) (Sample.standsStill .paused) ⟨1, 0⟩⟩

end Workflows.Engine
