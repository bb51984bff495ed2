import Workflows.Proofs.Engine.Stretch

/-!
# Walks

A walk whose launcher starts children as it should has a result: it is a stretch of moves at whose
end its instance waits or has ended.

* `Halted`        a walk that is over
* `Aftermath`     what is written behind a node
* `Passed`        a node that a walk has run, and what was written behind it
* `walk_induct`   what holds of the last record and is kept by each node holds of a walk
* `walk_halted`   every walk is over some time, without an error
* `start_starts`  the engine is a launcher as walks want it

The last two statements depend on each other.  A child is started with one level less to go, so the
induction is on levels, and within one level on the steps of the walk.
-/

namespace Workflows

theorem runFrom_locked {ε α : Type} (id : String) (body : Run ε α) (w : World) :
    runFrom (Run.locked id body) w =
      ((runFrom body (w.locked id)).1,
        (runFrom body (w.locked id)).2.unlocked id) := rfl

theorem runFrom_locked_ok {ε α : Type} {id : String} {body : Run ε α} {w v : World} {a : α}
    (h : runFrom body (w.locked id) = (.ok a, v)) :
    runFrom (Run.locked id body) w = (.ok a, (v.unlocked id)) := by
  rw [runFrom_locked, h]

namespace Engine
variable {names : Nat → String} {launcher : Launcher} {f : Frame} {fs : List Frame} {w w' : World}
  {env : Env}
  {i : Instance} {n : Node}

/-! ## the end of a walk -/

theorem runFrom_failInstance {i stored : Instance} {w : World} (env : Env)
    (h : w.store.getInstance? i.id = some stored)
    (hv : stored.version = i.version) (error : String) :
    runFrom (failInstance env i error) w =
      (.ok ((i.fail error (friendlyMessage error) (env.time w)).written (env.time w)),
        w.announce ((i.fail error (friendlyMessage error) (env.time w)).written (env.time w))
        (env.time w)) := by
  unfold failInstance
  rw [runFrom_lift_bind]
  exact runFrom_persistStatus env h hv

structure Halted (names : Nat → String) (maxLevel : Nat) (f : Frame) (fs : List Frame)
    (w w' : World) (i j : Instance) : Prop where
  stretch : Stretch names maxLevel ⟨f :: fs, w⟩ ⟨fs, w'⟩ i j
  status : j.status ≠ .running

theorem Current.halted (h : Current names f fs i w) {j : Instance} (maxLevel : Nat)
    (ha : Halt w.store i j) (now : Instant) :
    Halted names maxLevel f fs w (w.announce (j.written now) now) i (j.written now) :=
  ⟨h.halt ha now, ha.status_ne_running⟩

theorem Current.storedById (h : Current names f fs i w) : w.store.getInstance? i.id = some i := by
  rw [h.id]
  exact h.stored

theorem runFrom_enterStatus {i : Instance} {w : World} (env : Env)
    (h : w.store.getInstance? i.id = some i) (status : InstanceStatus) :
    runFrom (enterStatus env i status) w =
      (.ok ((i.setStatus status (env.time w)).written (env.time w)),
        w.announce ((i.setStatus status (env.time w)).written (env.time w)) (env.time w)) := by
  unfold enterStatus
  rw [runFrom_lift_bind]
  exact runFrom_persistStatus env h rfl

theorem runFrom_park (env : Env) (hi : w.store.getInstance? i.id = some i) (o : Outcome) :
    runFrom (park env i o) w =
      (.ok (({ i.setStatus .waiting (env.time w) with waitingFor := o.wait } : Instance).written
          (env.time w)),
        w.announce (({ i.setStatus .waiting (env.time w) with waitingFor := o.wait } :
          Instance).written (env.time w)) (env.time w)) := by
  unfold park
  rw [runFrom_lift_bind]
  exact runFrom_persistStatus env hi rfl

/-- A computation that writes the last record of a walk. -/
def Overs (env : Env) (i : Instance) (w : World) (x : Run EngineError Instance) : Prop :=
  ∃ j, Halt w.store i j ∧
    runFrom x w = (.ok (j.written (env.time w)), w.announce (j.written (env.time w)) (env.time w))

theorem enterCompleted_overs (env : Env) (h : Current names f fs i w) :
    Overs env i w (enterStatus env i .completed) :=
  ⟨_, .complete (env.time w), runFrom_enterStatus env h.storedById .completed⟩

theorem failInstance_overs (env : Env) (h : Current names f fs i w) (error : String) :
    Overs env i w (failInstance env i error) :=
  ⟨_, .fail error (env.time w), runFrom_failInstance env h.storedById rfl error⟩

theorem park_overs (env : Env) (h : Current names f fs i w) {o : Outcome}
    (ho : ∀ wait, o.wait = some wait → wait.kind = .subprocess → Awaited w.store i.id wait.id)
    (hs : o.wait.isSome = true) : Overs env i w (park env i o) :=
  ⟨_, .wait o.wait (env.time w) ho hs, runFrom_park env h.storedById o⟩

theorem Overs.halted {x : Run EngineError Instance} (hx : Overs env i w x)
    (h : Current names f fs i w) (maxLevel : Nat) :
    ∃ j w', runFrom x w = (.ok j, w') ∧ Halted names maxLevel f fs w w' i j := by
  obtain ⟨j, hj, hrun⟩ := hx
  exact ⟨_, _, hrun, h.halted maxLevel hj (env.time w)⟩

/-! ## children that have ended before their parents could wait -/

theorem rememberChild_version (i child : Instance) (nodeId : String) :
    (i.rememberChild child nodeId).version = i.version := by
  obtain ⟨children, h⟩ := Instance.rememberChild_eq i child nodeId
  rw [h]

theorem runFrom_applyChild_goesOn (env : Env) (i : Instance) (n : Node) {child : Instance}
    (link : ChildLink) (hc : child.status = .completed) (w : World) :
    runFrom (applyChild env i n child link) w =
      (.ok (.goesOn (takeOver (i.rememberChild child link.parentNodeId) child n.id link)), w) := by
  unfold applyChild
  rw [if_pos hc]
  rfl

theorem runFrom_applyChild_completed (env : Env) (i : Instance) {child : Instance}
    {link : ChildLink} (hn : link.parentNodeId = n.id) (hc : child.status = .completed)
    (w : World) :
    runFrom (applyChild env i n child link) w = (.ok (.goesOn (withOutputs i child link)), w) := by
  rw [runFrom_applyChild_goesOn env i n link hc, ← hn]
  rfl

theorem runFrom_applyChild_failed (env : Env) {child : Instance} {link : ChildLink}
    (hi : w.store.getInstance? i.id = some i) (hc : child.status ≠ .completed) :
    runFrom (applyChild env i n child link) w =
      (.ok (.stopped ((failedWith i child link (env.time w)).written (env.time w))),
        w.announce ((failedWith i child link (env.time w)).written (env.time w)) (env.time w)) := by
  have hstored : w.store.getInstance? (i.rememberChild child link.parentNodeId).id = some i := by
    rw [(Instance.SameOrigin.rememberChild i child link.parentNodeId).id]
    exact hi
  have hfail : runFrom (failInstance env (i.rememberChild child link.parentNodeId)
      (childFailure child)) w = _ :=
    runFrom_failInstance env hstored (rememberChild_version i child link.parentNodeId).symm
      (childFailure child)
  unfold applyChild
  rw [if_neg hc, runFrom_bind_ok hfail]
  rfl

theorem WaitsForChild.finishedChild? {s : Store} {o : Outcome} {child : Instance} {link : ChildLink}
    (h : WaitsForChild s i n o child link) :
    finishedChild? s o = if child.status.isTerminal then some (child, link) else none := by
  unfold Engine.finishedChild?
  rw [h.wait]
  simp only [h.stored, h.linked]

theorem WaitsForChild.reports {s : Store} {o : Outcome} {child : Instance} {link : ChildLink}
    (h : WaitsForChild s i n o child link) (ht : child.status.isTerminal = true) :
    Reports s i.id child link := by
  refine ⟨?_, ht, ?_, h.parent⟩
  · rw [h.id]
    exact h.stored
  · rw [h.id]
    exact h.linked

/-- a child that has finished is taken over -/
theorem runFrom_reconcile_finished {o : Outcome} {child : Instance} {link : ChildLink}
    (hf : finishedChild? w.store o = some (child, link)) :
    runFrom (reconcile env i n o) w =
      runFrom (applyChild env i n child link >>= fun p => match p with
        | .goesOn i => do return some (.goesOn (← persist env i))
        | .stopped i => return some (.stopped i) : Run EngineError (Option Progress)) w := by
  have hread : runFrom (Run.fromStore (finishedChild? · o) : Run EngineError _) w =
      (.ok (some (child, link)), w) := by
    rw [← hf]
    rfl
  exact runFrom_bind_ok hread _

theorem runFrom_reconcile_unfinished {o : Outcome} (hf : finishedChild? w.store o = none) :
    runFrom (reconcile env i n o) w = (.ok none, w) := by
  unfold reconcile
  rw [runFrom_fromStore_bind, hf]
  rfl

theorem runFrom_reconcile_goesOn {o : Outcome} {child : Instance} {link : ChildLink}
    (hi : w.store.getInstance? i.id = some i)
    (hf : finishedChild? w.store o = some (child, link)) (hc : child.status = .completed) :
    runFrom (reconcile env i n o) w =
      (.ok (some (.goesOn
          ((takeOver (i.rememberChild child link.parentNodeId) child n.id link).written
            (env.time w)))),
        w.put ((takeOver (i.rememberChild child link.parentNodeId) child n.id link).written
          (env.time w))) := by
  have hid : (i.rememberChild child link.parentNodeId).id = i.id :=
    (Instance.SameOrigin.rememberChild i child link.parentNodeId).id
  have hstored : w.store.getInstance? (i.rememberChild child link.parentNodeId).id = some i :=
    hid.symm ▸ hi
  have hpersist : runFrom (persist env
      (takeOver (i.rememberChild child link.parentNodeId) child n.id link)) w = _ :=
    runFrom_persist env hstored (rememberChild_version i child link.parentNodeId).symm
  rw [runFrom_reconcile_finished hf,
    runFrom_bind_ok (runFrom_applyChild_goesOn env i n link hc w)]
  exact runFrom_bind_ok hpersist _

theorem runFrom_reconcile_completed (env : Env) {o : Outcome} {child : Instance} {link : ChildLink}
    (hi : w.store.getInstance? i.id = some i) (hc : WaitsForChild w.store i n o child link)
    (ht : child.status.isTerminal = true) (hcompleted : child.status = .completed) :
    runFrom (reconcile env i n o) w =
      (.ok (some (.goesOn ((withOutputs i child link).written (env.time w)))),
        w.put ((withOutputs i child link).written (env.time w))) := by
  have hfinished : finishedChild? w.store o = some (child, link) := by
    rw [hc.finishedChild?, if_pos ht]
  rw [runFrom_reconcile_goesOn hi hfinished hcompleted, ← hc.node]
  rfl

theorem runFrom_reconcile_failed (env : Env) {o : Outcome} {child : Instance} {link : ChildLink}
    (hi : w.store.getInstance? i.id = some i) (hc : WaitsForChild w.store i n o child link)
    (ht : child.status.isTerminal = true) (hcompleted : child.status ≠ .completed) :
    runFrom (reconcile env i n o) w =
      (.ok (some (.stopped ((failedWith i child link (env.time w)).written (env.time w)))),
        w.announce ((failedWith i child link (env.time w)).written (env.time w)) (env.time w)) := by
  have hfinished : finishedChild? w.store o = some (child, link) := by
    rw [hc.finishedChild?, if_pos ht]
  rw [runFrom_reconcile_finished hfinished,
    runFrom_bind_ok (runFrom_applyChild_failed env hi hcompleted)]
  rfl

theorem runFrom_reconcile_none (env : Env) {o : Outcome} {child : Instance} {link : ChildLink}
    (hc : WaitsForChild w.store i n o child link) (ht : ¬ child.status.isTerminal = true) :
    runFrom (reconcile env i n o) w = (.ok none, w) := by
  have hfinished : finishedChild? w.store o = none := by
    rw [hc.finishedChild?, if_neg ht]
  exact runFrom_reconcile_unfinished hfinished

/-- What is written behind a node: nothing, the outputs of a child that has completed before it was
waited for, or the last record of the walk. -/
inductive Aftermath (i : Instance) (w : World) : Next → World → Prop
  | done (targets : List String) : Aftermath i w (.visit targets i) w
  | taken {child : Instance} {link : ChildLink} (targets : List String) (now : Instant)
    (h : Reports w.store i.id child link) (hc : child.status = .completed) :
    Aftermath i w (.visit targets ((withOutputs i child link).written now))
      (w.put ((withOutputs i child link).written now))
  | last {j : Instance} (now : Instant) (h : Halt w.store i j) :
    Aftermath i w (.stop (j.written now)) (w.announce (j.written now) now)

theorem Overs.stop {x : Run EngineError Instance} (hx : Overs env i w x) :
    ∃ next w', runFrom (do return .stop (← x) : Run EngineError Next) w = (.ok next, w') ∧
      Aftermath i w next w' := by
  obtain ⟨j, hj, hrun⟩ := hx
  exact ⟨_, _, runFrom_bind_ok hrun _, .last (env.time w) hj⟩

/-- a child that has ended before its parent could wait for it -/
theorem reconciled_aftermath (env : Env) (h : Current names f fs i w) {d : Definition}
    {o : Outcome} {child : Instance} {link : ChildLink}
    (hc : WaitsForChild w.store i n o child link) (ht : child.status.isTerminal = true) :
    ∃ next w', runFrom (do
        match ← reconcile env i n o with
        | some (.goesOn i) => return .visit (d.nextNodes n none) i
        | some (.stopped i) => return .stop i
        | none => return .stop (← park env i o) : Run EngineError Next) w = (.ok next, w') ∧
      Aftermath i w next w' := by
  by_cases hcompleted : child.status = .completed
  · rw [runFrom_bind_ok (runFrom_reconcile_completed env h.storedById hc ht hcompleted)]
    exact ⟨_, _, rfl, .taken _ _ (hc.reports ht) hcompleted⟩
  · rw [runFrom_bind_ok (runFrom_reconcile_failed env h.storedById hc ht hcompleted)]
    exact ⟨_, _, rfl, .last _ (.failWith (hc.reports ht) hcompleted (env.time w))⟩

theorem afterNode_aftermath (env : Env) (h : Current names f fs i w) {o : Outcome}
    (hf : Fits w.store i n o) :
    ∃ next w', runFrom (afterNode env f.definition i n o) w = (.ok next, w') ∧
      Aftermath i w next w' := by
  have hdone : ∀ targets : List String, ∃ next w', runFrom
      (if n.kind = .finish then return .visit [] i else return .visit targets i :
        Run EngineError Next) w = (.ok next, w') ∧ Aftermath i w next w' := by
    intro targets
    split
    · exact ⟨_, _, rfl, .done []⟩
    · exact ⟨_, _, rfl, .done targets⟩
  unfold afterNode
  cases ho : o.status with
  | completed => exact hdone _
  | breakLoop => exact hdone _
  | continueLoop => exact hdone _
  | failed => exact (failInstance_overs env h _).stop
  | waiting =>
    show ∃ next w', runFrom (if n.kind = .subprocess then _ else _ : Run EngineError Next) w = _ ∧ _
    by_cases hk : n.kind = .subprocess
    · rw [if_pos hk]
      obtain ⟨child, link, hc⟩ := hf.subprocess hk ho
      by_cases ht : child.status.isTerminal = true
      · exact reconciled_aftermath env h hc ht
      · have hawaited : ∀ wait, o.wait = some wait → wait.kind = .subprocess →
          Awaited w.store i.id wait.id := by
          intro wait hw _
          rw [hc.wait] at hw
          cases hw
          exact ⟨child, link, hc.stored, Bool.eq_false_iff.mpr ht, hc.linked, hc.parent⟩
        rw [runFrom_bind_ok (runFrom_reconcile_none env hc ht)]
        exact (park_overs env h hawaited (hc.wait ▸ rfl)).stop
    · rw [if_neg hk]
      refine (park_overs env h (fun wait hw hs => ?_) ((hf.other hk).named ho)).stop
      exact absurd hs ((hf.other hk).kind wait hw)

/-- a walk after a node, that goes on or is over -/
def Next.Follows (names : Nat → String) (maxLevel : Nat) (f : Frame) (fs : List Frame)
    (i : Instance) (w w' : World) : Next → Prop
  | .visit _ j => Stretch names maxLevel ⟨f :: fs, w⟩ ⟨f :: fs, w'⟩ i j ∧ j.status = .running
  | .stop j => Halted names maxLevel f fs w w' i j

theorem Aftermath.follows {next : Next} (ha : Aftermath i w next w')
    (h : Current names f fs i w) (maxLevel : Nat) : next.Follows names maxLevel f fs i w w' := by
  cases ha with
  | done => exact ⟨h.aside .refl (Around.refl w), h.running⟩
  | @taken child link targets now hr hc =>
    have hj : Advance w.store f.definition i (withOutputs i child link) := .takeOver hr hc
    exact ⟨h.advance hj now, hj.status.trans h.running⟩
  | last now ha => exact h.halted maxLevel ha now

theorem afterNode_follows (env : Env) (h : Current names f fs i w) (maxLevel : Nat) {o : Outcome}
    (hf : Fits w.store i n o) :
    ∃ next w', runFrom (afterNode env f.definition i n o) w = (.ok next, w') ∧
      next.Follows names maxLevel f fs i w w' := by
  obtain ⟨next, w', hrun, ha⟩ := afterNode_aftermath env h hf
  exact ⟨next, w', hrun, ha.follows h maxLevel⟩

/-! ## walks -/

/-- A node that a walk has run, and what was written behind it. -/
structure Passed (names : Nat → String) (env : Env) (launcher : Launcher) (f : Frame)
    (fs : List Frame) (w u : World) (i : Instance) (next : Next) : Prop where
  current : Current names f fs i w
  passed : ∃ n o k v, f.definition.findNode? n.id = some n ∧
    runFrom (runNode env launcher i n) w = (.ok (o, k), v) ∧ Fits v.store k n o ∧
    Stretch names env.settings.maxNestingLevel ⟨f :: fs, w⟩ ⟨f :: fs, v⟩ i k ∧
    k.status = .running ∧
    runFrom (afterNode env f.definition k n o) v = (.ok next, u) ∧ Aftermath k v next u

theorem Passed.follows {u : World} {next : Next} (h : Passed names env launcher f fs w u i next) :
    match next with
    | .visit _ j => Current names f fs j u ∧
      Stretch names env.settings.maxNestingLevel ⟨f :: fs, w⟩ ⟨f :: fs, u⟩ i j
    | .stop j => Halted names env.settings.maxNestingLevel f fs w u i j := by
  obtain ⟨n, o, k, v, _, _, _, hstretch, hk, _, ha⟩ := h.passed
  have hcurrent := h.current.after hstretch hk
  have hfollows := ha.follows hcurrent env.settings.maxNestingLevel
  cases next with
  | visit targets j =>
    exact ⟨hcurrent.after hfollows.1 hfollows.2, hstretch.trans hfollows.1⟩
  | stop j => exact ⟨hstretch.trans hfollows.stretch, hfollows.status⟩

/-- A walk has a result, and what holds of its last record, and is kept by each node before, holds
of all of it.  The induction is on the steps that are left. -/
theorem walk_induct {P : Instance → World → Instance → World → Prop}
    (hl : Starts names env.settings.maxNestingLevel launcher)
    (hover : ∀ {i w j}, Current names f fs i w → Halt w.store i j →
      ∀ now, P i w (j.written now) (w.announce (j.written now) now))
    (hstop : ∀ {i w j u}, Passed names env launcher f fs w u i (.stop j) → P i w j u)
    (hvisit : ∀ {i w k u targets j w'}, Passed names env launcher f fs w u i (.visit targets k) →
      P k u j w' → P i w j w')
    (steps : Nat) (pending : List String) (h : Current names f fs i w) :
    ∃ j w', runFrom (walk env launcher f.definition steps pending i) w = (.ok j, w') ∧
      P i w j w' := by
  have hends : ∀ {i w x}, Current names f fs i w → Overs env i w x →
      ∃ j w', runFrom x w = (.ok j, w') ∧ P i w j w' := by
    rintro i w x h ⟨j, hj, hrun⟩
    exact ⟨_, _, hrun, hover h hj _⟩
  induction steps generalizing pending i w with
  | zero =>
    cases pending with
    | nil => exact hends h (enterCompleted_overs env h)
    | cons id pending =>
      unfold walk
      cases f.definition.findNode? id with
      | none => exact hends h (failInstance_overs env h _)
      | some n => exact hends h (failInstance_overs env h _)
  | succ steps ih =>
    cases pending with
    | nil => exact hends h (enterCompleted_overs env h)
    | cons id pending =>
      unfold walk
      cases hn : f.definition.findNode? id with
      | none => exact hends h (failInstance_overs env h _)
      | some n =>
        have hn' := Definition.findNode?_self hn
        obtain ⟨o, k, v, hnode, hstretch, hk, hfits⟩ := runNode_stretch hl h hn'
        obtain ⟨next, u, hafter, ha⟩ := afterNode_aftermath env (h.after hstretch hk) hfits
        have hpassed : Passed names env launcher f fs w u i next :=
          ⟨h, n, o, k, v, hn', hnode, hfits, hstretch, hk, hafter, ha⟩
        show ∃ j w', runFrom (runNode env launcher i n >>= _) w = _ ∧ _
        rw [runFrom_bind_ok hnode]
        show ∃ j w', runFrom (afterNode env f.definition k n o >>= _) v = _ ∧ _
        rw [runFrom_bind_ok hafter]
        cases next with
        | visit targets k' =>
          obtain ⟨j, w', hrun, hj⟩ := ih (targets ++ pending) hpassed.follows.1
          exact ⟨j, w', hrun, hvisit hpassed hj⟩
        | stop j => exact ⟨j, u, rfl, hstop hpassed⟩

/-- A walk has a result, and is over after it. -/
theorem walk_halted (hl : Starts names env.settings.maxNestingLevel launcher) (steps : Nat)
    (pending : List String) (h : Current names f fs i w) :
    ∃ j w', runFrom (walk env launcher f.definition steps pending i) w = (.ok j, w') ∧
      Halted names env.settings.maxNestingLevel f fs w w' i j := by
  refine walk_induct (P := fun i w j w' => Halted names env.settings.maxNestingLevel f fs w w' i j)
    hl (fun h hj now => h.halted _ hj now) (fun h => h.follows) (fun h hj => ?_) steps pending h
  obtain ⟨_, hstretch⟩ := h.follows
  exact ⟨hstretch.trans hj.stretch, hj.status⟩

/-! ## starting -/

/-- the world in which an instance is started, under its lock -/
def starting (env : Env) (w : World) : World :=
  { w with
    ids := w.ids + 1
    ticks := w.ticks + 1
    locks := w.locks.push (.acquire (env.idName w.ids)) }

theorem starting_quiet (env : Env) (w : World) : Quiet w (starting env w) :=
  Quiet.of_events rfl (Nat.le_succ _) rfl rfl

def startedAs (env : Env) (r : StartRequest) (d : Definition) (pinned : Option String) (w : World) :
    Instance :=
  newInstance r d pinned (env.idName w.ids) (env.time (starting env w))

theorem startedAs_created {r : StartRequest} {d : Definition} {pinned : Option String}
    {maxLevel : Nat} (hf : Fresh env.idName w) (hd : requested? w.store r = some (d, pinned))
    (hl : r.nestingLevel ≤ maxLevel) :
    Created env.idName maxLevel (starting env w) r d (startedAs env r d pinned w) :=
  ⟨⟨pinned, env.time (starting env w), hd, rfl⟩, hl, ⟨w.ids, Nat.lt_succ_self _, rfl⟩,
    hf.unstored _ (Nat.le_refl _), hf.unlinked _ (Nat.le_refl _)⟩

theorem started_around (r : StartRequest) (d : Definition) (pinned : Option String) :
    Around env.idName none w ((starting env w).started (startedAs env r d pinned w) d) := by
  have hput : Around env.idName (some (env.idName w.ids)) (starting env w)
      ((starting env w).started (startedAs env r d pinned w) d) :=
    (Around.put (starting env w) (startedAs env r d pinned w)).tell _ _ _
  have hquiet : Around env.idName none w (starting env w) := Around.of_quiet (starting_quiet env w)
  refine Around.hide ?_ (hquiet.of_none.trans hput)
  exact ⟨w.ids, Nat.le_refl _, Nat.lt_succ_self _, rfl⟩

theorem started_current (h : Ready env.idName fs w) (r : StartRequest) (d : Definition)
    (pinned : Option String) :
    Current env.idName ⟨env.idName w.ids, d⟩ fs (startedAs env r d pinned w)
      ((starting env w).started (startedAs env r d pinned w) d) := by
  have hready := h.of_none (started_around r d pinned)
  have hstored : ((starting env w).started (startedAs env r d pinned w) d).store.getInstance?
      (env.idName w.ids) = some (startedAs env r d pinned w) :=
    World.getInstance?_put_self rfl
  refine ⟨⟨hready.fresh, ?_⟩, rfl, hstored, rfl⟩
  intro f hf
  rcases List.mem_cons.mp hf with rfl | hf
  · exact ⟨_, hstored⟩
  · exact hready.frames f hf

/-- what a start does once the definition is known -/
def startRun (env : Env) (launcher : Launcher) (r : StartRequest) (d : Definition)
    (pinned : Option String) (w : World) : Except EngineError Instance × World :=
  runFrom (match d.startNode? with
    | some n => walkFrom env launcher d [n.id] (startedAs env r d pinned w)
    | none =>
      failInstance env (startedAs env r d pinned w) ("Workflow " ++ d.id ++ " has no start node"))
    ((starting env w).started (startedAs env r d pinned w) d)

theorem runFrom_startWith {r : StartRequest} {d : Definition} {pinned : Option String}
    {j : Instance} {u : World} (hl : ¬ env.settings.maxNestingLevel < r.nestingLevel)
    (hd : requested? w.store r = some (d, pinned))
    (hrun : startRun env launcher r d pinned w = (.ok j, u)) :
    runFrom (startWith env launcher r) w =
      (.ok (env.idName w.ids), (u.unlocked (env.idName w.ids))) := by
  unfold startWith
  rw [if_neg hl, runFrom_fromStore_bind, hd]
  simp only
  rw [runFrom_lift_bind, runFrom_lift_bind, runFrom_lift_bind]
  refine (runFrom_bind_ok (runFrom_locked_ok (v := u) (a := j) ?_) _).trans rfl
  rw [runFrom_lift_bind, runFrom_lift_bind]
  exact hrun

theorem runFrom_startWith_tooDeep {r : StartRequest}
    (hl : env.settings.maxNestingLevel < r.nestingLevel) : runFrom (startWith env launcher r) w =
      (.error (.node (.nestingLimit r.nestingLevel env.settings.maxNestingLevel)), w) := by
  unfold startWith
  rw [if_pos hl]
  rfl

theorem runFrom_startWith_unknown {r : StartRequest}
    (hl : ¬ env.settings.maxNestingLevel < r.nestingLevel) (hd : requested? w.store r = none) :
    runFrom (startWith env launcher r) w = (.error (.workflow (.notFound r.workflowId)), w) := by
  unfold startWith
  rw [if_neg hl, runFrom_fromStore_bind, hd]
  rfl

/-- what a start has looked up that was not refused -/
theorem startWith_requested {r : StartRequest} {id : String}
    (h : (runFrom (startWith env launcher r) w).1 = .ok id) :
    (¬ env.settings.maxNestingLevel < r.nestingLevel) ∧
      ∃ d pinned, requested? w.store r = some (d, pinned) := by
  by_cases hl : env.settings.maxNestingLevel < r.nestingLevel
  · rw [runFrom_startWith_tooDeep hl] at h
    cases h
  · cases hd : requested? w.store r with
    | none =>
      rw [runFrom_startWith_unknown hl hd] at h
      cases h
    | some selected => exact ⟨hl, selected.1, selected.2, rfl⟩

/-- the new instance is walked, or fails at once -/
theorem startRun_halted (hl : Starts env.idName env.settings.maxNestingLevel launcher)
    (h : Ready env.idName fs w) (r : StartRequest) (d : Definition) (pinned : Option String) :
    ∃ j u, startRun env launcher r d pinned w = (.ok j, u) ∧
      Halted env.idName env.settings.maxNestingLevel ⟨env.idName w.ids, d⟩ fs
        ((starting env w).started (startedAs env r d pinned w) d) u
        (startedAs env r d pinned w) j := by
  have hcurrent := started_current h r d pinned
  unfold startRun
  cases d.startNode? with
  | none => exact (failInstance_overs env hcurrent _).halted hcurrent _
  | some n => exact walk_halted hl _ _ hcurrent

/-- The ids under which a walk leaves links alone are those that were generated before it. -/
theorem startRun_launched {r : StartRequest} {d : Definition} {pinned : Option String}
    {j : Instance} {u : World}
    (h : Ready env.idName fs w) (hl : r.nestingLevel ≤ env.settings.maxNestingLevel)
    (hd : requested? w.store r = some (d, pinned))
    (hj : Halted env.idName env.settings.maxNestingLevel ⟨env.idName w.ids, d⟩ fs
      ((starting env w).started (startedAs env r d pinned w) d) u (startedAs env r d pinned w) j) :
    Launched env.idName env.settings.maxNestingLevel fs r w (env.idName w.ids)
      (u.unlocked (env.idName w.ids)) := by
  have hbegin : Around env.idName none w _ := started_around r d pinned
  have hrelease : Quiet u (u.unlocked (env.idName w.ids)) := Quiet.unlocked u _
  have hwalk := hj.stretch.around.trans (Around.of_quiet hrelease)
  have hbetween : Between env.idName w (u.unlocked (env.idName w.ids)) (env.idName w.ids) :=
    ⟨w.ids, Nat.le_refl _, Nat.lt_of_lt_of_le (Nat.lt_succ_self _) hwalk.ids, rfl⟩
  refine ⟨⟨starting env w, d, startedAs env r d pinned w, starting_quiet env w,
    startedAs_created h.fresh hd hl, rfl,
    ?_⟩, ?_, hbetween, ?_, ⟨j, ?_, ?_⟩⟩
  · exact hj.stretch.moves.tail (.quiet hrelease)
  · exact Around.hide hbetween (hbegin.of_none.trans hwalk)
  · rw [hwalk.links]
    · exact h.fresh.unlinked w.ids (Nat.le_refl _)
    · rintro ⟨n, hn, _, he⟩
      have : w.ids = n := h.fresh.distinct he
      have : w.ids + 1 ≤ n := hn
      omega
  · exact hj.stretch.stored
  · exact ⟨hj.stretch.origin.id, hj.stretch.origin.parentId, hj.stretch.origin.nestingLevel⟩

theorem startWith_starts (hl : Starts env.idName env.settings.maxNestingLevel launcher) :
    Starts env.idName env.settings.maxNestingLevel (startWith env launcher) := by
  intro fs w r h
  by_cases hlevel : env.settings.maxNestingLevel < r.nestingLevel
  · exact .inl ⟨_, runFrom_startWith_tooDeep hlevel, rfl⟩
  · cases hd : requested? w.store r with
    | none => exact .inl ⟨_, runFrom_startWith_unknown hlevel hd, rfl⟩
    | some selected =>
      obtain ⟨d, pinned⟩ := selected
      obtain ⟨j, u, hrun, hj⟩ := startRun_halted hl h r d pinned
      exact .inr ⟨_, _, runFrom_startWith hlevel hd hrun,
        startRun_launched h (Nat.le_of_not_lt hlevel) hd hj⟩

/-- The engine starts instances at any level that is allowed. -/
theorem startWithin_starts (levels : Nat) :
    Starts env.idName env.settings.maxNestingLevel (startWithin env levels) := by
  induction levels with
  | zero => exact fun fs w r _ => .inl ⟨_, rfl, rfl⟩
  | succ levels ih => exact startWith_starts ih

/-- **The engine is a launcher that walks can rely on.** -/
theorem start_starts : Starts env.idName env.settings.maxNestingLevel (start env) :=
  fun fs w r h => startWithin_starts _ fs w r h

end Engine
end Workflows
