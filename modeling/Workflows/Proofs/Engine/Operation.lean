import Workflows.Proofs.Engine.Climb

/-!
# Operations

Every operation of the engine is refused and changes nothing, or acts on its instance and walks; and
then, where the instance has ended, on the parent that waits for it, and so on upward.

* `Operation`      a call of the engine
* `Performed`      what an operation does
* `Call`, `after`  operations one after another
* `Upkeep`         a property of worlds that every change of an operation keeps

Main statements: what an operation does in every world in which ids are fresh and instances are
stored under their own (`run_performed`), and that it keeps what its changes keep
(`Upkeep.performed`).
-/

namespace Workflows.Engine

inductive Operation where
  | start (r : StartRequest)
  | resume (id nodeId : String) (data : Option Json)
  | pause (id : String)
  | cancel (id : String)
  | step (id nodeId : String)

/-- the operation, without its answer -/
def Operation.run (env : Env) : Operation → Run EngineError Unit
  | .start r => do let _ ← Engine.start env r
  | .resume id nodeId data => Engine.resume env id nodeId data
  | .pause id => Engine.pause env id
  | .cancel id => Engine.cancel env id
  | .step id nodeId => do let _ ← stepNode env id nodeId

/-- the record of an instance after a single step -/
def recordStep (i : Instance) (n : Node) (o : Outcome) (vars : Vars)
    (startedAt completedAt : Instant) : Instance :=
  ({ i with currentNodeId := some n.id, vars := vars } : Instance).record n o startedAt completedAt

theorem sameOrigin_recordStep (i : Instance) (n : Node) (o : Outcome) (vars : Vars)
    (startedAt completedAt : Instant) :
    i.SameOrigin (recordStep i n o vars startedAt completedAt) :=
  ⟨rfl, rfl, rfl, rfl, rfl, rfl, rfl⟩

inductive Performed (names : Nat → String) (maxLevel : Nat) (w : World) :
    Operation → Except EngineError Unit → World → Prop
  | refused {op : Operation} {e : EngineError} {w' : World} (h : Idle w w')
    (he : e.isStorage = false) : Performed names maxLevel w op (.error e) w'
  | started {r : StartRequest} {w' : World} (h : Deed names maxLevel (.start r) w w') :
    Performed names maxLevel w (.start r) (.ok ()) w'
  | resumed {id nodeId : String} {data : Option Json} {j : Instance} {u w' : World}
    {result : Except EngineError Unit}
    (h : Deed names maxLevel (.resume id nodeId data) w u) (hj : u.store.getInstance? id = some j)
    (hc : Climb names maxLevel (u.store.instances.length + 1) j u result w') :
    Performed names maxLevel w (.resume id nodeId data) result w'
  /-- the instance is held already -/
  | held {id : String} {w' : World} (h : Idle w w') :
    Performed names maxLevel w (.pause id) (.ok ()) w'
  | paused {id : String} {w' : World} (h : Deed names maxLevel (.pause id) w w') :
    Performed names maxLevel w (.pause id) (.ok ()) w'
  | cancelled {id : String} {j : Instance} {u w' : World} {result : Except EngineError Unit}
    (h : Deed names maxLevel (.cancel id) w u) (hj : u.store.getInstance? id = some j)
    (hc : Climb names maxLevel (u.store.instances.length + 1) j u result w') :
    Performed names maxLevel w (.cancel id) result w'
  /-- a node is run beside the walks of its children, and recorded in an instance of any state -/
  | stepped {id nodeId : String} {i : Instance} {d : Definition} {n : Node} {o : Outcome}
    {vars : Vars}
    {startedAt completedAt now : Instant} {v w' : World} (hi : w.store.getInstance? id = some i)
    (hid : i.id = id) (hd : definitionOf? w.store i = some d) (hn : d.findNode? nodeId = some n)
    (hm : Moves names maxLevel ⟨[⟨id, d⟩], w⟩ ⟨[⟨id, d⟩], v⟩)
    (hv : v.store.getInstance? id = some i)
    (hw : Quiet (v.put ((recordStep i n o vars startedAt completedAt).written now)) w') :
    Performed names maxLevel w (.step id nodeId) (.ok ()) w'

variable {env : Env} {i j : Instance} {d : Definition} {n : Node} {w : World} {nodeId : String}

/-! ## operations under the lock of their instance -/

theorem runFrom_locked_error {α : Type} {id : String} {body : Run EngineError α} {e : EngineError}
    (h : runFrom body (w.locked id) =
      (.error e, (w.locked id))) :
    ∃ w', runFrom (Run.locked id body) w = (.error e, w') ∧ Idle w w' := by
  refine ⟨(w.locked id).unlocked id, ?_, ⟨rfl, rfl, rfl, rfl⟩⟩
  rw [runFrom_locked, h]

theorem Acted.locked {act : Act} {id : String} {body : Run EngineError Instance} {w' : World}
    (h : runFrom body (w.locked id) = (.ok j, w'))
    (ha : Acted env act id (w.locked id) j w') :
    ∃ w'', runFrom (Run.locked id body) w = (.ok j, w'') ∧ Acted env act id w j w'' :=
  ⟨_, runFrom_locked_ok h, ha.1.around_quiet (Quiet.locked w id) (Quiet.unlocked w' id), ha.2⟩

/-- A body under a lock is refused and changes nothing, or acts. -/
theorem lockedBody_acts {act : Act} {id : String} {body : Run EngineError Instance}
    (h : (∃ e, runFrom body (w.locked id) = (.error e, w.locked id) ∧ e.isStorage = false) ∨
      ∃ j w', runFrom body (w.locked id) = (.ok j, w') ∧ Acted env act id (w.locked id) j w') :
    (∃ e w', runFrom (Run.locked id body) w = (.error e, w') ∧ Idle w w' ∧
        e.isStorage = false) ∨
      ∃ j w', runFrom (Run.locked id body) w = (.ok j, w') ∧ Acted env act id w j w' := by
  rcases h with ⟨e, hrun, he⟩ | ⟨j, w', hrun, ha⟩
  · obtain ⟨w', hrun', hidle⟩ := runFrom_locked_error hrun
    exact .inl ⟨e, w', hrun', hidle, he⟩
  · obtain ⟨w'', hrun', ha'⟩ := Acted.locked hrun ha
    exact .inr ⟨j, w'', hrun', ha'⟩

theorem resumeBody_acts (ho : Orderly env.idName w) (id nodeId : String) (data : Option Json) :
    (∃ e, runFrom (do
        let i ← getInstance id
        if i.status.isParked then
          let d ← definitionFor i
          let n ← getNode d nodeId
          continueAfter env d (withData i nodeId data) n nodeId (data.bind routeOf)
        else throw (i.refuse "resume")) w = (.error e, w) ∧ e.isStorage = false) ∨
      ∃ j w', runFrom (do
        let i ← getInstance id
        if i.status.isParked then
          let d ← definitionFor i
          let n ← getNode d nodeId
          continueAfter env d (withData i nodeId data) n nodeId (data.bind routeOf)
        else throw (i.refuse "resume")) w = (.ok j, w') ∧
        Acted env (.resume id nodeId data) id w j w' := by
  cases hi : w.store.getInstance? id with
  | none =>
    rw [runFrom_bind_error (runFrom_getInstance_none hi)]
    exact .inl ⟨_, rfl, rfl⟩
  | some i =>
    have hid := ho.keyed _ _ hi
    subst hid
    rw [runFrom_bind_ok (runFrom_getInstance hi)]
    by_cases hp : i.status.isParked = true
    · rw [if_pos hp]
      cases hd : definitionOf? w.store i with
      | none =>
        rw [runFrom_bind_error (runFrom_definitionFor_none hd)]
        exact .inl ⟨_, rfl, rfl⟩
      | some d =>
        rw [runFrom_bind_ok (runFrom_definitionFor hd)]
        cases hn : d.findNode? nodeId with
        | none =>
          rw [runFrom_bind_error (runFrom_getNode_none hn)]
          exact .inl ⟨_, rfl, rfl⟩
        | some n =>
          rw [runFrom_bind_ok (runFrom_getNode hn)]
          right
          exact continueAfter_acts ho.fresh (sameOrigin_withData i nodeId data).id hi
            (withData_version i nodeId data).symm (.resume data (env.time w) hi hp hd ⟨n, hn⟩) n _
    · rw [if_neg hp]
      exact .inl ⟨_, rfl, rfl⟩

theorem cancelBody_acts (ho : Orderly env.idName w) (id : String) :
    (∃ e, runFrom (do
        let i ← getInstance id
        if i.status.isTerminal then throw (i.refuse "cancel")
        else enterStatus env i .cancelled) w = (.error e, w) ∧ e.isStorage = false) ∨
      ∃ j w', runFrom (do
        let i ← getInstance id
        if i.status.isTerminal then throw (i.refuse "cancel")
        else enterStatus env i .cancelled) w = (.ok j, w') ∧ Acted env (.cancel id) id w j w' := by
  cases hi : w.store.getInstance? id with
  | none =>
    rw [runFrom_bind_error (runFrom_getInstance_none hi)]
    exact .inl ⟨_, rfl, rfl⟩
  | some i =>
    have hid := ho.keyed _ _ hi
    subst hid
    rw [runFrom_bind_ok (runFrom_getInstance hi)]
    by_cases ht : i.status.isTerminal = true
    · rw [if_pos ht]
      exact .inl ⟨_, rfl, rfl⟩
    · rw [if_neg ht]
      refine .inr ⟨_, _, runFrom_enterStatus env hi .cancelled, ⟨w, _, Quiet.refl w,
        .cancel (env.time w) hi (Bool.eq_false_iff.mpr ht), .refl⟩, ?_⟩
      exact World.getInstance?_put_self rfl

/-! ## single steps -/

/-- the run of a node in a single step -/
def stepRun (env : Env) (i : Instance) (n : Node) (w : World) : Outcome × Session :=
  (n.attempt (contextOf env (start env) { i with currentNodeId := some n.id })).run
    (sessionOf env i.vars w)

/-- the record after a single step, as it is written -/
def stepRecord (env : Env) (i : Instance) (n : Node) (w : World) : Instance :=
  (recordStep i n (stepRun env i n w).1 (stepRun env i n w).2.vars (env.time w)
    (env.time (stepRun env i n w).2.world)).written (env.time (stepRun env i n w).2.world)

/-- A single step is made of moves up to its end, where its record is written. -/
theorem stepRun_moves (ho : Orderly env.idName w) (hi : w.store.getInstance? i.id = some i)
    (hn : d.findNode? nodeId = some n) :
    Moves env.idName env.settings.maxNestingLevel ⟨[⟨i.id, d⟩], w⟩
      ⟨[⟨i.id, d⟩], (stepRun env i n w).2.world⟩ ∧
      (stepRun env i n w).2.world.store.getInstance? i.id = some i := by
  have hready : Ready env.idName [⟨i.id, d⟩] w := by
    refine ⟨ho.fresh, fun f hf => ?_⟩
    rw [List.mem_singleton.mp hf]
    exact ⟨i, hi⟩
  have hnode := Definition.findNode?_self hn
  have hran : Node.Ran (contextOf env (start env) { i with currentNodeId := some n.id }) n w
      (stepRun env i n w).1 (stepRun env i n w).2.world :=
    Node.attempt_ran _ n (sessionOf env i.vars w)
  obtain ⟨hmoves, haround, _⟩ :=
    ran_moves (f := ⟨i.id, d⟩) start_starts hready hi rfl
      ⟨rfl, rfl, rfl, rfl, rfl, rfl, rfl⟩ hnode hran
  exact ⟨hmoves, haround.stored ho.fresh (fun he => nomatch he) hi⟩

def stepReport (env : Env) (d : Definition) (i : Instance) (n : Node) (w : World) : StepReport where
  outcome := (stepRun env i n w).1
  nextNodes :=
    if (stepRun env i n w).1.status.isDone then d.nextNodes n (stepRun env i n w).1.route else []
  vars := (stepRecord env i n w).vars

/-- A single step whose node leaves the record alone writes what it did. -/
theorem runFrom_stepNode_of_stored (hi : w.store.getInstance? i.id = some i)
    (hd : definitionOf? w.store i = some d) (hn : d.findNode? nodeId = some n)
    (hs : (stepRun env i n (w.locked i.id)).2.world.store.getInstance? i.id = some i) :
    runFrom (stepNode env i.id nodeId) w =
      (.ok (stepReport env d i n (w.locked i.id)),
        ((stepRun env i n (w.locked i.id)).2.world.put
          (stepRecord env i n (w.locked i.id))).unlocked i.id) := by
  have hi' : (w.locked i.id).store.getInstance? i.id = some i := hi
  have hd' : definitionOf? (w.locked i.id).store i = some d := hd
  refine runFrom_locked_ok ?_
  generalize w.locked i.id = v at hi' hd' hs ⊢
  have hpersist : runFrom (persist env (recordStep i n (stepRun env i n v).1
      (stepRun env i n v).2.vars (env.time v) (env.time (stepRun env i n v).2.world)))
      (stepRun env i n v).2.world = _ :=
    runFrom_persist env hs rfl
  rw [runFrom_bind_ok (runFrom_getInstance hi'), runFrom_bind_ok (runFrom_definitionFor hd'),
    runFrom_bind_ok (runFrom_getNode hn), runFrom_lift_bind,
    runFrom_bind_ok (runFrom_inSession env _ _ _)]
  show runFrom (do
    let completedAt ← env.now
    let j ← persist env (recordStep i n (stepRun env i n v).1 (stepRun env i n v).2.vars
      (env.time v) completedAt)
    return (⟨(stepRun env i n v).1, _, j.vars⟩ : StepReport) : Run EngineError StepReport)
      (stepRun env i n v).2.world = _
  rw [runFrom_lift_bind]
  exact runFrom_bind_ok hpersist _

theorem runFrom_stepNode (ho : Orderly env.idName w) (hi : w.store.getInstance? i.id = some i)
    (hd : definitionOf? w.store i = some d) (hn : d.findNode? nodeId = some n) :
    runFrom (stepNode env i.id nodeId) w =
      (.ok (stepReport env d i n (w.locked i.id)),
        ((stepRun env i n (w.locked i.id)).2.world.put
          (stepRecord env i n (w.locked i.id))).unlocked i.id) :=
  runFrom_stepNode_of_stored hi hd hn (stepRun_moves (ho.locked i.id) hi hn).2

/-! ## operations -/

theorem start_performed (ho : Orderly env.idName w) (r : StartRequest) :
    Performed env.idName env.settings.maxNestingLevel w (.start r)
      (runFrom ((Operation.start r).run env) w).1 (runFrom ((Operation.start r).run env) w).2 := by
  show Performed _ _ w _ (runFrom (Engine.start env r >>= fun _ => pure ()) w).1
    (runFrom (Engine.start env r >>= fun _ => pure ()) w).2
  rcases start_starts [] w r ⟨ho.fresh, fun _ hf => nomatch hf⟩ with
    ⟨e, hrun, he⟩ | ⟨id, w', hrun, hl⟩
  · rw [runFrom_bind_error hrun]
    exact .refused ⟨rfl, rfl, rfl, rfl⟩ he
  · rw [runFrom_bind_ok hrun]
    obtain ⟨v, d, i, hquiet, hcreated, _, hmoves⟩ := hl.walked
    exact .started ⟨v, _, hquiet, .start hcreated, hmoves⟩

theorem finish_climbs {id : String} (ho : Orderly env.idName w)
    (hj : w.store.getInstance? id = some j) :
    Climb env.idName env.settings.maxNestingLevel (w.store.instances.length + 1) j w
      (runFrom (finish env j) w).1 (runFrom (finish env j) w).2 := by
  rw [runFrom_finish]
  refine settle_climbs _ ho ?_
  rw [ho.keyed _ _ hj]
  exact hj

theorem resume_performed (ho : Orderly env.idName w) (id nodeId : String) (data : Option Json) :
    Performed env.idName env.settings.maxNestingLevel w (.resume id nodeId data)
      (runFrom ((Operation.resume id nodeId data).run env) w).1
      (runFrom ((Operation.resume id nodeId data).run env) w).2 := by
  show Performed _ _ w _ (runFrom (Engine.resume env id nodeId data) w).1
    (runFrom (Engine.resume env id nodeId data) w).2
  unfold Engine.resume
  rcases lockedBody_acts (resumeBody_acts (ho.locked id) id nodeId data) with
    ⟨e, w', hrun, hidle, he⟩ | ⟨j, u, hrun, hdeed, hj⟩
  · rw [runFrom_bind_error hrun]
    exact .refused hidle he
  · rw [runFrom_bind_ok hrun]
    exact .resumed hdeed hj (finish_climbs (hdeed.orderly ho) hj)

theorem cancel_performed (ho : Orderly env.idName w) (id : String) :
    Performed env.idName env.settings.maxNestingLevel w (.cancel id)
      (runFrom ((Operation.cancel id).run env) w).1
      (runFrom ((Operation.cancel id).run env) w).2 := by
  show Performed _ _ w _ (runFrom (Engine.cancel env id) w).1 (runFrom (Engine.cancel env id) w).2
  unfold Engine.cancel
  rcases lockedBody_acts (cancelBody_acts (ho.locked id) id) with
    ⟨e, w', hrun, hidle, he⟩ | ⟨j, u, hrun, hdeed, hj⟩
  · rw [runFrom_bind_error hrun]
    exact .refused hidle he
  · rw [runFrom_bind_ok hrun]
    exact .cancelled hdeed hj (finish_climbs (hdeed.orderly ho) hj)

theorem Performed.of_locked_error {op : Operation} {α : Type} {id : String}
    {body : Run EngineError α} {f : α → Run EngineError Unit} (e : EngineError)
    (h : runFrom body (w.locked id) = (.error e, w.locked id)) (he : e.isStorage = false) :
    Performed env.idName env.settings.maxNestingLevel w op (runFrom (Run.locked id body >>= f) w).1
      (runFrom (Run.locked id body >>= f) w).2 := by
  obtain ⟨w', hrun, hidle⟩ := runFrom_locked_error h
  rw [runFrom_bind_error hrun]
  exact .refused hidle he

theorem step_performed (ho : Orderly env.idName w) (id nodeId : String) :
    Performed env.idName env.settings.maxNestingLevel w (.step id nodeId)
      (runFrom ((Operation.step id nodeId).run env) w).1
      (runFrom ((Operation.step id nodeId).run env) w).2 := by
  show Performed _ _ w _ (runFrom (stepNode env id nodeId >>= fun _ => pure ()) w).1
    (runFrom (stepNode env id nodeId >>= fun _ => pure ()) w).2
  cases hi : w.store.getInstance? id with
  | none =>
    have hi' : (w.locked id).store.getInstance? id = none := hi
    exact .of_locked_error _ (runFrom_bind_error (runFrom_getInstance_none hi') _) rfl
  | some i =>
    have hid := ho.keyed _ _ hi
    subst hid
    have hi' : (w.locked i.id).store.getInstance? i.id = some i := hi
    cases hd : definitionOf? w.store i with
    | none =>
      have hd' : definitionOf? (w.locked i.id).store i = none := hd
      refine .of_locked_error (.workflow (.notFound i.workflowId)) ?_ rfl
      rw [runFrom_bind_ok (runFrom_getInstance hi'),
        runFrom_bind_error (runFrom_definitionFor_none hd')]
    | some d =>
      have hd' : definitionOf? (w.locked i.id).store i = some d := hd
      cases hn : d.findNode? nodeId with
      | none =>
        refine .of_locked_error (.workflow (.nodeNotFound nodeId)) ?_ rfl
        rw [runFrom_bind_ok (runFrom_getInstance hi'), runFrom_bind_ok (runFrom_definitionFor hd'),
          runFrom_bind_error (runFrom_getNode_none hn)]
      | some n =>
        obtain ⟨hmoves, hstored⟩ := stepRun_moves (ho.locked i.id) hi' hn
        rw [runFrom_bind_ok (runFrom_stepNode ho hi hd hn)]
        exact .stepped hi rfl hd hn (.head (.quiet (Quiet.locked w i.id)) hmoves) hstored
          (Quiet.unlocked _ i.id)

theorem runFrom_pause (hi : w.store.getInstance? i.id = some i) (ht : ¬ i.status.isTerminal = true)
    (hp : i.status ≠ .paused) :
    runFrom (Engine.pause env i.id) w =
      (.ok (), ((w.locked i.id).announce ((held i (env.time w)).written (env.time w))
        (env.time w)).unlocked i.id) := by
  have hi' : (w.locked i.id).store.getInstance? i.id = some i := hi
  have hrun : runFrom (persistStatus env (held i (env.time w))) (w.locked i.id) = _ :=
    runFrom_persistStatus env hi' rfl
  refine runFrom_locked_ok ?_
  rw [runFrom_bind_ok (runFrom_getInstance hi'), if_neg ht, if_neg hp, runFrom_lift_bind]
  exact runFrom_bind_ok hrun _

theorem pause_performed (ho : Orderly env.idName w) (id : String) :
    Performed env.idName env.settings.maxNestingLevel w (.pause id)
      (runFrom ((Operation.pause id).run env) w).1
      (runFrom ((Operation.pause id).run env) w).2 := by
  show Performed _ _ w _ (runFrom (Engine.pause env id) w).1 (runFrom (Engine.pause env id) w).2
  cases hi : w.store.getInstance? id with
  | none =>
    have hi' : (w.locked id).store.getInstance? id = none := hi
    unfold Engine.pause
    rw [runFrom_locked, runFrom_bind_error (runFrom_getInstance_none hi')]
    exact .refused ⟨rfl, rfl, rfl, rfl⟩ rfl
  | some i =>
    have hid := ho.keyed _ _ hi
    subst hid
    have hi' : (w.locked i.id).store.getInstance? i.id = some i := hi
    by_cases ht : i.status.isTerminal = true
    · unfold Engine.pause
      rw [runFrom_locked, runFrom_bind_ok (runFrom_getInstance hi'), if_pos ht]
      exact .refused ⟨rfl, rfl, rfl, rfl⟩ rfl
    · by_cases hp : i.status = .paused
      · unfold Engine.pause
        rw [runFrom_locked, runFrom_bind_ok (runFrom_getInstance hi'), if_neg ht, if_pos hp]
        exact .held ⟨rfl, rfl, rfl, rfl⟩
      · rw [runFrom_pause hi ht hp]
        exact .paused ⟨_, _, Quiet.locked w i.id, .pause _ hi' (Bool.eq_false_iff.mpr ht) hp,
          .single (.quiet (Quiet.unlocked _ i.id))⟩

/-- **What an operation does.** -/
theorem run_performed (ho : Orderly env.idName w) (op : Operation) :
    Performed env.idName env.settings.maxNestingLevel w op (runFrom (op.run env) w).1
      (runFrom (op.run env) w).2 := by
  cases op with
  | start r => exact start_performed ho r
  | resume id nodeId data => exact resume_performed ho id nodeId data
  | pause id => exact pause_performed ho id
  | cancel id => exact cancel_performed ho id
  | step id nodeId => exact step_performed ho id nodeId

/-! ## one operation after another -/

/-- An operation at a reading of the clock. -/
structure Call where
  time : Instant
  operation : Operation

def Call.from (env : Env) (w : World) (c : Call) : World :=
  (runFrom (c.operation.run { env with epoch := c.time }) w).2

/-- the world after calls one after another -/
def after (env : Env) (w : World) (calls : List Call) : World := calls.foldl (Call.from env) w

theorem after_append (env : Env) (w : World) (calls more : List Call) :
    after env w (calls ++ more) = after env (after env w calls) more := List.foldl_append

/-! ### what every write keeps -/

variable {names : Nat → String} {maxLevel : Nat} {u w' : World} {result : Except EngineError Unit}
  {op : Operation}

theorem Idle.quiet (h : Idle w w') : Quiet w w' :=
  Quiet.of_events (congrArg Store.core h.store) (Nat.le_of_eq h.ids.symm) h.refusals h.events

/-- A property of worlds that every change of an operation keeps, if its instances are started for requests of some
sort. -/
structure Upkeep (names : Nat → String) (maxLevel : Nat) (admits : StartRequest → Prop) (P : World → Prop) :
    Prop where
  quiet : ∀ {v v'}, Quiet v v' → P v → P v'
  move : ∀ {s s'}, Move names maxLevel s s' → P s.world → P s'.world
  opening : ∀ {act v s}, Opening names maxLevel act v s → (∀ r, act = .start r → admits r) → P v → P s.world
  /-- the record of a single step -/
  step : ∀ {v i} n o vars t t' now, v.store.getInstance? i.id = some i → P v →
    P (v.put ((recordStep i n o vars t t').written now))

namespace Upkeep
variable {admits : StartRequest → Prop} {P : World → Prop} {s s' : Scene} {act : Act} {fuel : Nat}

theorem moves (hu : Upkeep names maxLevel admits P) (h : Moves names maxLevel s s') (hs : P s.world) :
    P s'.world := by
  induction h with
  | refl => exact hs
  | tail _ hm ih => exact hu.move hm ih

theorem deed (hu : Upkeep names maxLevel admits P) (h : Deed names maxLevel act w w')
    (hact : ∀ r, act = .start r → admits r) (hw : P w) : P w' := by
  obtain ⟨v, scene, hquiet, hopening, hmoves⟩ := h
  have hopened : P scene.world := hu.opening hopening hact (hu.quiet hquiet hw)
  exact hu.moves hmoves hopened

theorem climb (hu : Upkeep names maxLevel admits P) (h : Climb names maxLevel fuel i w result w') (hw : P w) :
    P w' := by
  induction h with
  | exhausted => exact hw
  | ended => exact hw
  | refused _ _ hidle => exact hu.quiet hidle.quiet hw
  | up _ hdeed _ _ ih => exact ih (hu.deed hdeed nofun hw)

/-- **An operation keeps what each of its changes keeps.** -/
theorem performed (hu : Upkeep names maxLevel admits P) (h : Performed names maxLevel w op result w')
    (hop : ∀ r, op = .start r → admits r) (hw : P w) : P w' := by
  cases h with
  | refused hidle => exact hu.quiet hidle.quiet hw
  | started hdeed =>
    apply hu.deed hdeed _ hw
    intro r hr
    cases hr
    exact hop _ rfl
  | resumed hdeed _ hc => exact hu.climb hc (hu.deed hdeed nofun hw)
  | held hidle => exact hu.quiet hidle.quiet hw
  | paused hdeed => exact hu.deed hdeed nofun hw
  | cancelled hdeed _ hc => exact hu.climb hc (hu.deed hdeed nofun hw)
  | @stepped _ _ i d n o vars t t' now v _ _ hid _ _ hm hv hq =>
    have hstored : v.store.getInstance? i.id = some i := by
      rw [hid]
      exact hv
    have hrecorded := hu.step n o vars t t' now hstored (hu.moves hm hw)
    exact hu.quiet hq hrecorded

/-- what every write keeps -/
theorem of_writes (hstep : ∀ {v v'}, Writes names maxLevel v v' → P v → P v') :
    Upkeep names maxLevel (fun _ => True) P where
  quiet hq := hstep (.quiet hq)
  move hm := hstep hm.writes
  opening ho _ := hstep ho.writes
  step _ _ _ _ _ _ hi := hstep (.record hi ((sameOrigin_recordStep _ _ _ _ _ _).written _) rfl rfl rfl)

end Upkeep

/-- A property of worlds that every write keeps is kept by operations. -/
theorem Performed.induct {P : World → Prop} (h : Performed names maxLevel w op result w') (hw : P w)
    (hstep : ∀ {v v'}, Writes names maxLevel v v' → P v → P v') : P w' :=
  (Upkeep.of_writes hstep).performed h (fun _ _ => trivial) hw

theorem Performed.orderly (h : Performed names maxLevel w op result w') (ho : Orderly names w) :
    Orderly names w' :=
  h.induct ho Writes.orderly

theorem Performed.kept (h : Performed names maxLevel w op result w') : Kept w.store w'.store :=
  h.induct (P := fun v => Kept w.store v.store) (Kept.refl _) fun hw hk => hk.trans hw.kept

theorem Call.performed (env : Env) (ho : Orderly env.idName w) (c : Call) :
    Performed env.idName env.settings.maxNestingLevel w c.operation
      (runFrom (c.operation.run { env with epoch := c.time }) w).1 (c.from env w) :=
  @run_performed { env with epoch := c.time } w ho c.operation

theorem after_orderly (calls : List Call) (ho : Orderly env.idName w) :
    Orderly env.idName (after env w calls) := by
  induction calls generalizing w with
  | nil => exact ho
  | cons c calls ih => exact ih ((c.performed env ho).orderly ho)

/-- What every operation keeps holds after any number of calls. -/
theorem after_induct {P : World → Prop} (calls : List Call) (ho : Orderly env.idName w) (hw : P w)
    (hstep : ∀ {v v' op result}, Orderly env.idName v →
      Performed env.idName env.settings.maxNestingLevel v op result v' → P v → P v') :
    P (after env w calls) := by
  induction calls generalizing w with
  | nil => exact hw
  | cons c calls ih =>
    have hc := c.performed env ho
    exact ih (hc.orderly ho) (hstep ho hc hw)

end Workflows.Engine

/-! ## a small world -/

namespace Workflows.Engine.Sample

/-- the ids `i`, `ii`, `iii` and so on -/
def names (n : Nat) : String := String.ofList (List.replicate (n + 1) 'i')

theorem names_injective : Function.Injective names := by
  intro n m h
  have hlist : List.replicate (n + 1) 'i' = List.replicate (m + 1) 'i' := String.ofList_inj.mp h
  have hlength := congrArg List.length hlist
  rw [List.length_replicate, List.length_replicate] at hlength
  exact Nat.succ.inj hlength

def env : Env where
  settings := {}
  epoch := ⟨0, 0⟩
  idName := names
  reply := fun _ _ => .error (.executionFailed "no service")

/-- one node behind a start node -/
def workflow (id : String) (kind : NodeKind) (data : Json) : Definition where
  id := id
  name := id
  description := none
  status := .published
  version := 1
  subprocessCompatible := true
  nodes := [⟨"begin", .start, none, .null⟩, ⟨"work", kind, none, data⟩]
  edges := [⟨"edge", "begin", "work", none, none⟩]

/-- a workflow that waits for a form, and one that waits for it -/
def child : Definition := workflow "child" .form (.obj [("form_id", .str "question")])

def parent : Definition := workflow "parent" .subprocess (.obj [("workflow_id", .str "child")])

def world : World := { store := (({} : Store).saveWorkflow child).saveWorkflow parent }

theorem fresh : Fresh names world := ⟨names_injective, fun _ _ => rfl, fun _ _ => rfl⟩

/-- the parent is started as `i`, and its child as `ii` -/
def calls : List Call := [⟨⟨0, 0⟩, .start (.of "parent")⟩]

end Workflows.Engine.Sample
