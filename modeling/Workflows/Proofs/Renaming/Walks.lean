import Workflows.Proofs.Renaming.Records

/-!
# Walks and starts under other names

What a walk looks at is what its nodes look at, and what the children look at that are started on the way.  A walk that
looks at no generated id visits the same nodes in both runs, and leaves corresponding records behind.

* `nodeLooks`, `walkLooks`, `startLooks`   what a node, a walk and a start look at
* `Renaming.Progresses`, `Nexts`           what follows a child, and what follows a node, in the two runs
* `Renaming.StartsAlike`                   the children of a level are started alike

Main statement: an instance is started alike in both runs (`start_tallies`).  The induction is on the levels below it,
and within one level on the steps of the walk.
-/

namespace Workflows

namespace Engine

/-! ## What is looked at -/

section
variable (env : Env) (children : StartRequest → World → List Json)

/-- what a node of an instance looks at, and what the child looks at that it asks for -/
def nodeLooks (i : Instance) (n : Node) (w : World) : List Json :=
  n.looksAt i.vars ++
    if n.kind = .subprocess then
      match runFrom (Node.requestChild (contextOf env (start env) i) n) (sessionOf env i.vars w) with
      | (.ok (_, r), s) => children r s.world
      | (.error _, _) => []
    else []

/-- a node, and what follows it -/
def walkStep (d : Definition) (i : Instance) (n : Node) : Run EngineError Next := do
  let (o, i) ← runNode env (start env) i n
  afterNode env d i n o

def walkLooks (d : Definition) : (steps : Nat) → (pending : List String) → Instance → World → List Json
  | 0, _, _, _ => []
  | _ + 1, [], _, _ => []
  | steps + 1, id :: pending, i, w =>
    match d.findNode? id with
    | none => []
    | some n => nodeLooks env children i n (begun env i n w) ++
      match runFrom (walkStep env d i n) w with
      | (.ok (.visit targets i), w) => walkLooks d steps (targets ++ pending) i w
      | (_, _) => []

end

section
variable (env : Env)

def startLooksWithin : (levels : Nat) → StartRequest → World → List Json
  | 0, _, _ => []
  | levels + 1, r, w =>
    match requested? w.store r with
    | none => []
    | some (d, pinned) => match d.startNode? with
      | none => []
      | some n => walkLooks env (startLooksWithin levels) d env.settings.maxStepsPerTraversal [n.id]
          (startedAs env r d pinned w) ((starting env w).started (startedAs env r d pinned w) d)

/-- what a start looks at, its children included -/
def startLooks (r : StartRequest) (w : World) : List Json :=
  startLooksWithin env (env.settings.maxNestingLevel + 1 - r.nestingLevel) r w

end

/-! ## The level of a record -/

section
variable {env : Env} {launcher : Launcher} {d : Definition} {i j child : Instance} {n : Node} {o : Outcome}
  {link : ChildLink} {w u : World}

theorem persist_level (h : runFrom (persist env i) w = (.ok j, u)) : j.nestingLevel = i.nestingLevel := by
  rcases persist_cases env i w with ⟨e, hrun⟩ | ⟨stored, -, hrun⟩
  · cases congrArg Prod.fst (hrun.symm.trans h)
  · have hwritten : i.written (env.time w) = j := Except.ok.inj (congrArg Prod.fst (hrun.symm.trans h))
    rw [← hwritten]
    rfl

theorem runNode_level {o : Outcome} (h : runFrom (runNode env launcher i n) w = (.ok (o, j), u)) :
    j.nestingLevel = i.nestingLevel := by
  unfold runNode at h
  rw [runFrom_lift_bind, runFrom_lift_bind, runFrom_bind_ok (runFrom_inSession env _ _ _), runFrom_lift_bind,
    runFrom_lift_bind] at h
  obtain ⟨k, v, hk, h⟩ := ok_of_runFrom_bind h
  have hlevel := persist_level hk
  cases h
  exact hlevel

theorem applyChild_level (h : runFrom (applyChild env i n child link) w = (.ok (.goesOn j), u)) :
    j.nestingLevel = i.nestingLevel := by
  unfold applyChild at h
  dsimp only at h
  split at h
  · cases h
    exact (Instance.SameOrigin.rememberChild i child link.parentNodeId).nestingLevel
  · obtain ⟨k, v, -, h⟩ := ok_of_runFrom_bind h
    cases h

theorem reconcile_level (h : runFrom (reconcile env i n o) w = (.ok (some (.goesOn j)), u)) :
    j.nestingLevel = i.nestingLevel := by
  unfold reconcile at h
  rw [runFrom_fromStore_bind] at h
  split at h
  · obtain ⟨p, v, hp, h⟩ := ok_of_runFrom_bind h
    cases p with
    | goesOn k =>
      obtain ⟨l, x, hl, h⟩ := ok_of_runFrom_bind h
      cases h
      exact (persist_level hl).trans (applyChild_level hp)
    | stopped k => cases h
  · cases h

/-- an instance that is walked further is at its level still -/
theorem afterNode_level {targets : List String} (h : runFrom (afterNode env d i n o) w = (.ok (.visit targets j), u)) :
    j.nestingLevel = i.nestingLevel := by
  have hdone : ∀ others : List String,
      runFrom (if n.kind = .finish then return .visit [] i else return .visit others i :
      Run EngineError Next) w = (.ok (.visit targets j), u) → j.nestingLevel = i.nestingLevel := by
    intro others h
    split at h
    · cases h
      rfl
    · cases h
      rfl
  have hpark : ∀ v,
      runFrom (do return .stop (← park env i o) : Run EngineError Next) v ≠ (.ok (.visit targets j), u) := by
    intro v h
    obtain ⟨k, x, -, h⟩ := ok_of_runFrom_bind h
    cases h
  unfold afterNode at h
  split at h
  · exact hdone _ h
  · exact hdone _ h
  · exact hdone _ h
  · split at h
    · obtain ⟨p, v, hp, h⟩ := ok_of_runFrom_bind h
      rcases p with _ | (k | k)
      · exact absurd h (hpark v)
      · cases h
        exact reconcile_level hp
      · cases h
    · exact absurd h (hpark w)
  · obtain ⟨k, v, -, h⟩ := ok_of_runFrom_bind h
    cases h

end
end Engine

/-! ## The two runs -/

namespace Renaming
open Engine Node
variable (ρ : Renaming)

/-- an instance goes on in both runs, or stops in both -/
inductive Progresses : Progress → Progress → Prop
  | goesOn {i i' : Instance} (h : ρ.Instances i i') : Progresses (.goesOn i) (.goesOn i')
  | stopped {i i' : Instance} (h : ρ.Instances i i') : Progresses (.stopped i) (.stopped i')

/-- both walks go on to the same nodes, or both stop -/
inductive Nexts : Next → Next → Prop
  | visit (targets : List String) {i i' : Instance} (h : ρ.Instances i i') :
    Nexts (.visit targets i) (.visit targets i')
  | stop {i i' : Instance} (h : ρ.Instances i i') : Nexts (.stop i) (.stop i')

/-- The children of instances at a level are started alike, if they look at no generated id. -/
def StartsAlike (env env' : Env) (level : Nat) (children : StartRequest → World → List Json) : Prop :=
  ∀ r r' w w', r.nestingLevel = level + 1 → ρ.Requests r r' → ρ.Worlds w w' → ρ.Unseen (children r w) →
    ρ.Tallies ρ.Id (start env r) (start env' r') w w'

variable {ρ} {i i' child child' : Instance} {link link' : ChildLink} {o o' : Outcome} {n : Node} {d : Definition}
  {w w' : World} {env env' : Env} {children : StartRequest → World → List Json} {r r' : StartRequest}
  {pinned : Option String}

/-! ### children that have ended -/

/-- the error of a parent quotes its child -/
theorem Instances.childFailure (h : ρ.Instances child child') :
    ρ.Messages (childFailure child) (childFailure child') := by
  refine .child h.id ?_
  rcases rel_cases h.error with ⟨he, he'⟩ | ⟨e, e', he, he', hrel⟩
  · rw [he, he', h.status]
    exact .same _
  · rw [he, he']
    exact hrel

theorem applyChild_tallies (henv : ρ.Environments env env') (hρ : ρ.Harmless) (hw : ρ.Worlds w w')
    (hi : ρ.Instances i i') (hchild : ρ.Instances child child') (hlink : ρ.Links link link') :
    ρ.Tallies ρ.Progresses (applyChild env i n child link) (applyChild env' i' n child' link') w w' := by
  have hremembered := hi.rememberChild hchild link.parentNodeId
  unfold applyChild
  rw [hlink.parentNodeId, hchild.status]
  dsimp only
  split
  · exact .pure hw (.goesOn (hremembered.takeOver hchild n.id hlink))
  · exact (failInstance_tallies henv hρ hw hremembered hchild.childFailure).next fun _ _ _ _ hj hu =>
      .pure hu (.stopped hj)

theorem Stores.finishedChild? {s s' : Store} (h : ρ.Stores s s') (ho : ρ.Outcomes o o') :
    Option.Rel (fun p p' => ρ.Instances p.1 p'.1 ∧ ρ.Links p.2 p'.2) (finishedChild? s o) (finishedChild? s' o') := by
  unfold Engine.finishedChild?
  rcases rel_cases ho.wait with ⟨hwait, hwait'⟩ | ⟨wait, wait', hwait, hwait', hrel⟩
  · rw [hwait, hwait']
    exact .none
  · rw [hwait, hwait']
    rcases rel_cases (h.instances hrel.id) with ⟨hi, hi'⟩ | ⟨child, child', hi, hi', hchild⟩
    · simp only [hi, hi']
      exact .none
    · rcases rel_cases (h.links hrel.id) with ⟨hl, hl'⟩ | ⟨link, link', hl, hl', hlink⟩
      · simp only [hi, hi', hl, hl']
        exact .none
      · simp only [hi, hi', hl, hl', hchild.status]
        split
        · exact .some ⟨hchild, hlink⟩
        · exact .none

theorem reconcile_tallies (henv : ρ.Environments env env') (hρ : ρ.Harmless) (hw : ρ.Worlds w w')
    (hi : ρ.Instances i i') (ho : ρ.Outcomes o o') :
    ρ.Tallies (Option.Rel ρ.Progresses) (reconcile env i n o) (reconcile env' i' n o') w w' := by
  refine Tallies.fromStore_bind ?_
  rcases rel_cases (hw.store.finishedChild? ho) with ⟨hf, hf'⟩ | ⟨f, f', hf, hf', hchild, hlink⟩
  · rw [hf, hf']
    exact .pure hw .none
  · rw [hf, hf']
    refine (applyChild_tallies henv hρ hw hi hchild hlink).next fun p p' u u' hp hu => ?_
    cases hp with
    | goesOn hj => exact (persist_tallies henv hu hj).next fun _ _ _ _ hk hv => .pure hv (.some (.goesOn hk))
    | stopped hj => exact .pure hu (.some (.stopped hj))

/-! ### nodes -/

theorem Worlds.session (henv : ρ.Environments env env') (hw : ρ.Worlds w w') (hi : ρ.Instances i i') :
    ρ.Sessions (sessionOf env i.vars w) (sessionOf env' i'.vars w') := by
  refine ⟨hi.vars, ?_, hw⟩
  show ({ maxDepth := env'.settings.maxLoopDepth } : LoopStack) = { maxDepth := env.settings.maxLoopDepth }
  rw [henv.settings]

theorem Instances.context (henv : ρ.Environments env env') (hi : ρ.Instances i i') (l l' : Launcher) :
    ρ.Contexts (contextOf env l i) (contextOf env' l' i') := ⟨henv, hi.id, hi.nestingLevel⟩

/-- the child that a node asks for is at the next level -/
theorem StartsAlike.childAlike (h : ρ.StartsAlike env env' i.nestingLevel children)
    (hunseen : ρ.Unseen (nodeLooks env children i n w)) :
    ρ.ChildAlike (contextOf env (start env) i) (contextOf env' (start env') i') n (sessionOf env i.vars w) := by
  intro hk t r u hrun r' w' hr hw
  have hlooks := hunseen.right
  rw [if_pos hk, hrun] at hlooks
  exact h r r' u.world w' (requestChild_ok hrun).2.level hr hw hlooks

theorem inSession_tallies {f f' : StateM Session Outcome} {vars vars' : Vars}
    (h : ρ.Ends (f.run (sessionOf env vars w)) (f'.run (sessionOf env' vars' w'))) :
    ρ.Tallies (fun p p' => ρ.Outcomes p.1 p'.1 ∧ ρ.Binds p.2 p'.2) (inSession env vars f)
      (inSession env' vars' f') w w' := by
  show Beside _ _ _ (runFrom (inSession env vars f) w) (runFrom (inSession env' vars' f') w')
  rw [runFrom_inSession, runFrom_inSession]
  exact ⟨.ok ⟨h.outcome, h.session.vars⟩, h.session.world⟩

/-- the record of a node that has been run -/
theorem Instances.ran {vars vars' : Vars} {startedAt startedAt' completedAt completedAt' : Instant}
    (hi : ρ.Instances i i') (n : Node) (hvars : ρ.Binds vars vars') (ho : ρ.Outcomes o o')
    (hstarted : startedAt' = startedAt) (hcompleted : completedAt' = completedAt) :
    ρ.Instances (({ i with currentNodeId := some n.id, vars := vars } : Instance).record n o startedAt completedAt)
      (({ i' with currentNodeId := some n.id, vars := vars' } : Instance).record n o' startedAt' completedAt') := by
  have hran : ρ.Instances { i with currentNodeId := some n.id, vars := vars }
      { i' with currentNodeId := some n.id, vars := vars' } := { hi with currentNodeId := rfl, vars := hvars }
  rw [hstarted, hcompleted]
  exact hran.record n ho startedAt completedAt

theorem runNode_tallies (henv : ρ.Environments env env') (hw : ρ.Worlds w w') (hi : ρ.Instances i i')
    (hstarts : ρ.StartsAlike env env' i.nestingLevel children)
    (hunseen : ρ.Unseen (nodeLooks env children i n (begun env i n w))) :
    ρ.Tallies (fun p p' => ρ.Outcomes p.1 p'.1 ∧ ρ.Instances p.2 p'.2) (runNode env (start env) i n)
      (runNode env' (start env') i' n) w w' := by
  have hbegun : ρ.Worlds (begun env i n w) (begun env' i' n w') := hw.unread
  have hnode := runWithRetries_ends (hbegun.session henv hi) (hi.context henv (start env) (start env')) rfl rfl
    hunseen.left (hstarts.childAlike hunseen)
  refine Tallies.lift_bind (Tallies.lift_bind
    ((inSession_tallies hnode).next fun (o, vars) (o', vars') u u' hp hu => ?_))
  obtain ⟨ho, hvars⟩ := hp
  have hrecord := hi.ran n hvars ho (hbegun.time henv) (hu.time henv)
  have hemitted : ρ.Worlds ((env.emit i.id (o.happening n.id)).run u).2
      ((env'.emit i'.id (o'.happening n.id)).run u').2 :=
    hu.unread
  refine Tallies.lift_bind (Tallies.lift_bind ?_)
  exact (persist_tallies henv hemitted hrecord).next fun _ _ _ _ hj hv => .pure hv ⟨ho, hj⟩

theorem afterNode_tallies (henv : ρ.Environments env env') (hρ : ρ.Harmless) (hw : ρ.Worlds w w')
    (hi : ρ.Instances i i') (ho : ρ.Outcomes o o') :
    ρ.Tallies ρ.Nexts (afterNode env d i n o) (afterNode env' d i' n o') w w' := by
  have hdone : ρ.Tallies ρ.Nexts
      (if n.kind = .finish then return .visit [] i else return .visit (d.nextNodes n o.route) i)
      (if n.kind = .finish then return .visit [] i' else return .visit (d.nextNodes n o.route) i') w w' := by
    split
    · exact .pure hw (.visit _ hi)
    · exact .pure hw (.visit _ hi)
  have hpark : ∀ {v v'}, ρ.Worlds v v' → ρ.Tallies ρ.Nexts (do return .stop (← park env i o))
      (do return .stop (← park env' i' o')) v v' := fun hv =>
    (park_tallies henv hv hi ho).next fun _ _ _ _ hj hu => .pure hu (.stop hj)
  unfold afterNode
  rw [ho.status, ho.route, ho.error]
  split
  · exact hdone
  · exact hdone
  · exact hdone
  · split
    · refine (reconcile_tallies henv hρ hw hi ho).next fun p p' u u' hp hu => ?_
      cases hp with
      | none => exact hpark hu
      | some hp => cases hp with
        | goesOn hj => exact .pure hu (.visit _ hj)
        | stopped hj => exact .pure hu (.stop hj)
    · exact hpark hw
  · exact (failInstance_tallies henv hρ hw hi (.same _)).next fun _ _ _ _ hj hu => .pure hu (.stop hj)

/-! ### walks -/

/-- The induction is on the steps that are left. -/
theorem walk_tallies (henv : ρ.Environments env env') (hρ : ρ.Harmless) (hw : ρ.Worlds w w') (hi : ρ.Instances i i')
    (steps : Nat) (pending : List String) (hstarts : ρ.StartsAlike env env' i.nestingLevel children)
    (hunseen : ρ.Unseen (walkLooks env children d steps pending i w)) :
    ρ.Tallies ρ.Instances (walk env (start env) d steps pending i)
      (walk env' (start env') d steps pending i') w w' := by
  induction steps generalizing pending i i' w w' with
  | zero =>
    cases pending with
    | nil => exact enterStatus_tallies henv hw hi .completed
    | cons id pending =>
      unfold walk
      rw [henv.settings]
      split
      · exact failInstance_tallies henv hρ hw hi (.same _)
      · exact failInstance_tallies henv hρ hw hi (.same _)
  | succ steps ih =>
    cases pending with
    | nil => exact enterStatus_tallies henv hw hi .completed
    | cons id pending =>
      unfold walk
      unfold walkLooks at hunseen
      cases hn : d.findNode? id with
      | none => exact failInstance_tallies henv hρ hw hi (.same _)
      | some n =>
        simp only [hn] at hunseen
        refine Beside.bind (runNode_tallies henv hw hi hstarts hunseen.left) fun (o, j) (o', j') u u' hrun hp hu => ?_
        refine Beside.bind (afterNode_tallies henv hρ hu hp.2 hp.1) fun next next' v v' hafter hnext hv => ?_
        cases hnext with
        | visit targets hk =>
          have hvisit : runFrom (walkStep env d i n) w = _ := (runFrom_bind_ok hrun _).trans hafter
          have hrest := hunseen.right
          rw [hvisit] at hrest
          refine ih hv hk _ ?_ hrest
          rw [afterNode_level hafter, runNode_level hrun]
          exact hstarts
        | stop hk => exact .pure hv hk

/-! ### starts -/

theorem Worlds.fresh' (h : ρ.Worlds w w') : Fresh ρ.others w' := by
  refine ⟨ρ.others_injective, fun m hm => ?_, fun m hm => ?_⟩
  · rcases rel_cases (h.store.instances (.generated m)) with ⟨-, hnone⟩ | ⟨i, i', hi, -, -⟩
    · exact hnone
    · cases (h.fresh.unstored m (h.ids ▸ hm)).symm.trans hi
  · rcases rel_cases (h.store.links (.generated m)) with ⟨-, hnone⟩ | ⟨l, l', hl, -, -⟩
    · exact hnone
    · cases (h.fresh.unlinked m (h.ids ▸ hm)).symm.trans hl

theorem Stores.requested? {s s' : Store} (h : ρ.Stores s s') (hr : ρ.Requests r r') :
    requested? s' r' = requested? s r := by
  unfold Engine.requested?
  simp only [hr.workflowVersion, hr.workflowId, h.resolvePinned?, h.getWorkflow?]

theorem Worlds.startedAs (h : ρ.Worlds w w') (henv : ρ.Environments env env') (hr : ρ.Requests r r') (d : Definition)
    (pinned : Option String) : ρ.Instances (startedAs env r d pinned w) (startedAs env' r' d pinned w') := by
  have htime : env'.time (starting env' w') = env.time (starting env w) := by
    have hticked : ρ.Worlds (starting env w) (starting env' w') := h.freshId.tick.unread
    exact hticked.time henv
  refine ⟨h.generated henv, rfl, rfl, rfl, rfl, hr.inputs, .nil, rfl, .none, .none, rfl, hr.parentId, hr.nestingLevel,
    .nil,
    ?_, ?_, rfl, rfl⟩
  · exact htime
  · exact htime

/-- the worlds in which the new instance is stored -/
theorem Worlds.started (h : ρ.Worlds w w') (henv : ρ.Environments env env') (hr : ρ.Requests r r') (d : Definition)
    (pinned : Option String) : ρ.Worlds ((starting env w).started (Engine.startedAs env r d pinned w) d)
      ((starting env' w').started (Engine.startedAs env' r' d pinned w') d) := by
  have hstarting : ρ.Worlds (starting env w) (starting env' w') := h.freshId.tick.unread
  have hfresh : Fresh env.idName w := by
    rw [henv.names]
    exact h.fresh
  refine { hstarting with store := h.store.insertInstance (h.startedAs henv hr d pinned), fresh := ?_ }
  rw [← henv.names]
  exact hfresh.started r d pinned

/-- the new instance is walked, or fails at once -/
theorem startRun_beside (henv : ρ.Environments env env') (hρ : ρ.Harmless) (hw : ρ.Worlds w w') (hr : ρ.Requests r r')
    (hstarts : ρ.StartsAlike env env' r.nestingLevel children)
    (hunseen : ∀ n, d.startNode? = some n → ρ.Unseen (walkLooks env children d env.settings.maxStepsPerTraversal [n.id]
      (startedAs env r d pinned w) ((starting env w).started (startedAs env r d pinned w) d))) :
    Beside (fun _ _ => True) ρ.Worlds ρ.Instances (startRun env (start env) r d pinned w)
      (startRun env' (start env') r' d pinned w') := by
  have hstored := hw.started henv hr d pinned
  have hnew := hw.startedAs henv hr d pinned
  unfold startRun
  cases hn : d.startNode? with
  | none => exact failInstance_tallies henv hρ hstored hnew (.same _)
  | some n =>
    simp only
    unfold walkFrom
    rw [henv.settings]
    exact walk_tallies henv hρ hstored hnew _ _ hstarts (hunseen n hn)

/-- The children of a new instance are at the next level, where less levels are left. -/
theorem start_tallies_within (henv : ρ.Environments env env') (hρ : ρ.Harmless) {levels : Nat}
    (hlevels : env.settings.maxNestingLevel + 1 - r.nestingLevel = levels) (hw : ρ.Worlds w w') (hr : ρ.Requests r r')
    (hunseen : ρ.Unseen (startLooksWithin env levels r w)) : ρ.Tallies ρ.Id (start env r) (start env' r') w w' := by
  induction levels generalizing r r' w w' with
  | zero =>
    unfold start
    rw [henv.settings, hr.nestingLevel, hlevels]
    exact .throw hw trivial
  | succ levels ih =>
    have hfresh : Fresh env.idName w := by
      rw [henv.names]
      exact hw.fresh
    have hfresh' : Fresh env'.idName w' := by
      rw [henv.others]
      exact hw.fresh'
    have hlevel : ¬ env.settings.maxNestingLevel < r.nestingLevel := by omega
    have hlevel' : ¬ env'.settings.maxNestingLevel < r'.nestingLevel := by
      rw [henv.settings, hr.nestingLevel]
      exact hlevel
    show Beside _ _ _ (runFrom (start env r) w) (runFrom (start env' r') w')
    rw [start_eq_startWith r hfresh, start_eq_startWith r' hfresh']
    unfold startWith
    rw [if_neg hlevel, if_neg hlevel']
    refine Tallies.fromStore_bind ?_
    unfold startLooksWithin at hunseen
    rw [hw.store.requested? hr]
    cases hd : requested? w.store r with
    | none => exact .throw hw trivial
    | some selected =>
      obtain ⟨d, pinned⟩ := selected
      simp only [hd] at hunseen
      have hrun : Beside (fun _ _ => True) ρ.Worlds ρ.Instances (startRun env (start env) r d pinned w)
          (startRun env' (start env') r' d pinned w') := by
        refine startRun_beside henv hρ hw hr (fun s s' v v' hs hreq hv hlooks => ih (by omega) hv hreq hlooks)
          fun n hn => ?_
        simpa only [hn] using hunseen
      refine Tallies.lift_bind (Tallies.lift_bind (Tallies.lift_bind ?_))
      exact Beside.next (P := ρ.Instances) (Tallies.locked (Tallies.lift_bind (Tallies.lift_bind hrun)))
        fun _ _ u u' _ hu => .pure hu (hw.generated henv)

theorem start_tallies (henv : ρ.Environments env env') (hρ : ρ.Harmless) (hw : ρ.Worlds w w') (hr : ρ.Requests r r')
    (hunseen : ρ.Unseen (startLooks env r w)) : ρ.Tallies ρ.Id (start env r) (start env' r') w w' :=
  start_tallies_within henv hρ rfl hw hr hunseen

end Renaming
end Workflows
