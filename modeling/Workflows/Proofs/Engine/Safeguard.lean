import Workflows.Proofs.Engine.Operation

/-!
# Safeguards

What the few changes that the engine makes keep, every operation keeps, whatever is stored: records
under the ids of others and links in circles included.  Nothing is said about results, so
nothing is asked of the store.

* `Generated`   an id that was generated before
* `Upholds`     a computation that keeps a property of worlds
* `Safeguard`   a property that the changes of the engine keep, under the locks that are held

Main statement: every operation keeps what is safeguarded (`Safeguard.run`).
-/

namespace Workflows

/-! ## generated ids -/

/-- an id that was generated before -/
def Generated (names : Nat → String) (id : String) (w : World) : Prop :=
  ∃ n, n < w.ids ∧ id = names n

namespace Fresh
variable {names : Nat → String} {w w' : World}

theorem of_core (hf : Fresh names w) (hcore : w'.store.core = w.store.core)
    (hids : w.ids ≤ w'.ids) : Fresh names w' := by
  refine ⟨hf.distinct, fun n hn => ?_, fun n hn => ?_⟩
  · rw [Store.getInstance?_of_core hcore]
    exact hf.unstored n (Nat.le_trans hids hn)
  · rw [Store.getLink?_of_core hcore]
    exact hf.unlinked n (Nat.le_trans hids hn)

theorem put {i stored : Instance} (hf : Fresh names w)
    (hi : w.store.getInstance? i.id = some stored) : Fresh names (w.put i) := by
  refine (Around.put w i).fresh hf fun id he => ?_
  cases he
  exact ⟨stored, hi⟩

theorem link {l : ChildLink} (hf : Fresh names w) (hl : Generated names l.childId w) :
    Fresh names (w.link l) := by
  obtain ⟨m, hm, hid⟩ := hl
  refine ⟨hf.distinct, hf.unstored, fun n hn => ?_⟩
  rw [World.getLink?_link, if_neg]
  · exact hf.unlinked n hn
  · intro he
    have hnm : n = m := hf.distinct (he.trans hid)
    have : w.ids ≤ n := hn
    omega

theorem started {env : Env} (hf : Fresh env.idName w) (r : StartRequest) (d : Definition)
    (pinned : Option String) : Fresh env.idName
      ((Engine.starting env w).started (Engine.startedAs env r d pinned w) d) :=
  (Engine.started_around r d pinned).fresh hf fun _ he => nomatch he

end Fresh

namespace Engine

/-! ## computations -/

/-- A computation keeps a property of worlds, and its answer is as it should be. -/
structure Upholds {α : Type} (I : World → Prop) (Q : α → World → Prop) (x : Run EngineError α)
    (w : World) : Prop where
  ids : w.ids ≤ (runFrom x w).2.ids
  kept : I (runFrom x w).2
  answer : ∀ a, (runFrom x w).1 = .ok a → Q a (runFrom x w).2

namespace Upholds
variable {α β : Type} {I J : World → Prop} {P Q : α → World → Prop} {R : β → World → Prop}
  {x : Run EngineError α} {f : α → Run EngineError β} {w : World}

theorem of_run {r : Except EngineError α} {v : World} (h : runFrom x w = (r, v))
    (hids : w.ids ≤ v.ids) (hv : I v) (ha : ∀ a, r = .ok a → Q a v) : Upholds I Q x w := by
  refine ⟨?_, ?_, ?_⟩
  · rw [h]
    exact hids
  · rw [h]
    exact hv
  · rw [h]
    exact ha

theorem pure {a : α} (hw : I w) (ha : Q a w) : Upholds I Q (pure a : Run EngineError α) w := by
  refine ⟨Nat.le_refl _, hw, fun b hb => ?_⟩
  cases hb
  exact ha

theorem throw {e : EngineError} (hw : I w) : Upholds I Q (throw e : Run EngineError α) w :=
  ⟨Nat.le_refl _, hw, fun _ ha => nomatch ha⟩

theorem bind (hx : Upholds I P x w)
    (hf : ∀ a v, w.ids ≤ v.ids → I v → P a v → Upholds I R (f a) v) : Upholds I R (x >>= f) w := by
  obtain ⟨hids, hkept, hanswer⟩ := hx
  rcases hr : runFrom x w with ⟨r, v⟩
  rw [hr] at hids hkept hanswer
  cases r with
  | ok a =>
    obtain ⟨hids', hkept', hanswer'⟩ := hf a v hids hkept (hanswer a rfl)
    exact .of_run (runFrom_bind_ok hr f) (Nat.le_trans hids hids') hkept' hanswer'
  | error e => exact .of_run (runFrom_bind_error hr f) hids hkept fun _ ha => nomatch ha

/-- a step on the world that cannot fail -/
theorem lift_bind {g : StateM World α} (hids : w.ids ≤ (g.run w).2.ids)
    (h : Upholds I R (f (g.run w).1) (g.run w).2) :
    Upholds I R ((liftM g : Run EngineError α) >>= f) w := by
  obtain ⟨hids', hkept, hanswer⟩ := h
  rw [← runFrom_lift_bind (ε := EngineError)] at hids' hkept hanswer
  exact ⟨Nat.le_trans hids hids', hkept, hanswer⟩

/-- the store is read -/
theorem fromStore_bind {g : Store → α} (h : Upholds I R (f (g w.store)) w) :
    Upholds I R (Run.fromStore g >>= f) w := lift_bind (Nat.le_refl _) h

/-- a computation under a lock -/
theorem locked {S : α → Prop} {id : String}
    (hx : Upholds J (fun a _ => S a) x (w.locked id)) (hfree : ∀ v, J v → I (v.unlocked id)) :
    Upholds I (fun a _ => S a) (Run.locked id x) w :=
  ⟨hx.ids, hfree _ hx.kept, hx.answer⟩

end Upholds

/-- A property of worlds and one of records, for the locks that are held.  The changes that the
engine makes keep them. -/
structure Safeguard (env : Env) (I : List String → World → Prop) (G : Instance → Prop) :
    Prop where
  quiet : ∀ {held w w'}, I held w → w'.store.core = w.store.core → w.ids ≤ w'.ids →
    w'.locks = w.locks → I held w'
  read : ∀ {held w id i}, I held w → w.store.getInstance? id = some i → G i
  origin : ∀ {i j}, G i → i.SameOrigin j → G j
  /-- a record is written over another -/
  put : ∀ {held w i stored}, I held w → G i → w.store.getInstance? i.id = some stored →
    I held (w.put i)
  /-- an instance is started under its lock -/
  create : ∀ {held w r d pinned}, I held w → requested? w.store r = some (d, pinned) →
    G (startedAs env r d pinned w) ∧
      I (env.idName w.ids :: held) ((starting env w).started (startedAs env r d pinned w) d)
  link : ∀ {held w l}, I held w → Generated env.idName l.childId w → I held (w.link l)
  release : ∀ {held w id}, I (id :: held) w → I held (w.unlocked id)
  /-- no other lock is held where one is asked for whose id is not new -/
  acquire : ∀ {w id i}, I [] w → w.store.getInstance? id = some i → I [id] (w.locked id)
  /-- nothing is done under the lock of an instance that is not stored -/
  knock : ∀ {w id}, I [] w → w.store.getInstance? id = none → I [] ((w.locked id).unlocked id)

/-- A launcher keeps a property, and answers with ids that were generated. -/
def Safe (env : Env) (I : List String → World → Prop) (launcher : Launcher) : Prop :=
  ∀ held r w, I held w → Upholds (I held) (Generated env.idName) (launcher r) w

/-- the record that goes on or stops -/
def Progress.record : Progress → Instance
  | .goesOn i | .stopped i => i

/-- the record behind a node -/
def Next.record : Next → Instance
  | .visit _ i | .stop i => i

/-- a write is refused and noted, or a stored record is written over -/
theorem persist_cases (env : Env) (i : Instance) (w : World) :
    (∃ e, runFrom (persist env i) w =
      (.error (.storage e), { w with refusals := w.refusals.push e })) ∨
    ∃ stored, w.store.getInstance? i.id = some stored ∧ runFrom (persist env i) w =
      (.ok (i.written (env.time w)), w.put (i.written (env.time w))) := by
  cases hu : w.store.updateInstance { i with updatedAt := env.time w } with
  | error e =>
    left
    refine ⟨e, ?_⟩
    rw [runFrom_persist_eq, hu]
  | ok written =>
    right
    unfold Store.updateInstance at hu
    split at hu
    · cases hu
    · next stored hstored =>
      split at hu
      · next hv => exact ⟨stored, hstored, runFrom_persist env hstored hv⟩
      · cases hu

/-- the answer of a start is the id of its instance -/
theorem eq_of_map_ok {result : Except EngineError Instance} {id other : String}
    (h : (result.map fun _ => id) = .ok other) : id = other := by
  cases result with
  | ok i => exact Except.ok.inj h
  | error e => cases h

/-- A start is refused at once, or runs a new instance under its lock. -/
theorem startWith_cases (env : Env) (launcher : Launcher) (r : StartRequest) (w : World) :
    (∃ e, runFrom (startWith env launcher r) w = (.error e, w)) ∨
    ∃ d pinned, requested? w.store r = some (d, pinned) ∧
      runFrom (startWith env launcher r) w =
        ((startRun env launcher r d pinned w).1.map fun _ => env.idName w.ids,
          (startRun env launcher r d pinned w).2.unlocked (env.idName w.ids)) := by
  by_cases hlevel : env.settings.maxNestingLevel < r.nestingLevel
  · exact .inl ⟨_, runFrom_startWith_tooDeep hlevel⟩
  · cases hd : requested? w.store r with
    | none => exact .inl ⟨_, runFrom_startWith_unknown hlevel hd⟩
    | some selected =>
      obtain ⟨d, pinned⟩ := selected
      refine .inr ⟨d, pinned, rfl, ?_⟩
      rcases hrun : startRun env launcher r d pinned w with ⟨result, u⟩
      cases result with
      | ok j => exact runFrom_startWith hlevel hd hrun
      | error e =>
        have hlocked : ∀ {id : String} {body : Run EngineError Instance} {v : World},
            runFrom body (v.locked id) = (.error e, u) →
              runFrom (Run.locked id body) v = (.error e, u.unlocked id) := by
          intro id body v h
          rw [runFrom_locked, h]
        unfold startWith
        rw [if_neg hlevel, runFrom_fromStore_bind, hd]
        simp only
        rw [runFrom_lift_bind, runFrom_lift_bind, runFrom_lift_bind]
        refine runFrom_bind_error (hlocked ?_) _
        rw [runFrom_lift_bind, runFrom_lift_bind]
        exact hrun

theorem start_cases (env : Env) (r : StartRequest) (w : World) :
    (∃ e, runFrom (start env r) w = (.error e, w)) ∨
    ∃ levels d pinned, requested? w.store r = some (d, pinned) ∧
      runFrom (start env r) w =
        ((startRun env (startWithin env levels) r d pinned w).1.map fun _ => env.idName w.ids,
          (startRun env (startWithin env levels) r d pinned w).2.unlocked (env.idName w.ids)) := by
  unfold start
  cases env.settings.maxNestingLevel + 1 - r.nestingLevel with
  | zero => exact .inl ⟨_, rfl⟩
  | succ levels =>
    exact (startWith_cases env (startWithin env levels) r w).imp_right fun h => ⟨levels, h⟩

namespace Safeguard
variable {env : Env} {I : List String → World → Prop} {G : Instance → Prop}
  {launcher : Launcher} {held : List String} {w : World} {i : Instance}

/-! ## writing -/

theorem emit {id : String} {h : Happening} (hs : Safeguard env I G) (hw : I held w) :
    I held ((env.emit id h).run w).2 := hs.quiet hw rfl (Nat.le_refl _) rfl

theorem persist (hs : Safeguard env I G) (hw : I held w) (hi : G i) :
    Upholds (I held) (fun j _ => G j) (persist env i) w := by
  rcases persist_cases env i w with ⟨e, hrun⟩ | ⟨stored, hstored, hrun⟩
  · exact .of_run hrun (Nat.le_refl _) (hs.quiet hw rfl (Nat.le_refl _) rfl) fun _ ha => nomatch ha
  · have hj : G (i.written (env.time w)) := hs.origin hi ((Instance.SameOrigin.refl i).written _)
    refine .of_run hrun (Nat.le_refl _) (hs.put hw hj hstored) fun j ha => ?_
    cases ha
    exact hj

theorem persistStatus (hs : Safeguard env I G) (hw : I held w) (hi : G i) :
    Upholds (I held) (fun j _ => G j) (persistStatus env i) w :=
  (hs.persist hw hi).bind fun _ _ _ hv hj =>
    .lift_bind (Nat.le_refl _) (.pure (hs.emit hv) hj)

theorem enterStatus (hs : Safeguard env I G) (hw : I held w) (hi : G i) (status : InstanceStatus) :
    Upholds (I held) (fun j _ => G j) (enterStatus env i status) w :=
  .lift_bind (Nat.le_refl _)
    (hs.persistStatus hw (hs.origin hi ⟨rfl, rfl, rfl, rfl, rfl, rfl, rfl⟩))

theorem failInstance (hs : Safeguard env I G) (hw : I held w) (hi : G i) (error : String) :
    Upholds (I held) (fun j _ => G j) (failInstance env i error) w :=
  .lift_bind (Nat.le_refl _)
    (hs.persistStatus hw (hs.origin hi ⟨rfl, rfl, rfl, rfl, rfl, rfl, rfl⟩))

theorem park (hs : Safeguard env I G) (hw : I held w) (hi : G i) (o : Outcome) :
    Upholds (I held) (fun j _ => G j) (park env i o) w :=
  .lift_bind (Nat.le_refl _)
    (hs.persistStatus hw (hs.origin hi ⟨rfl, rfl, rfl, rfl, rfl, rfl, rfl⟩))

/-! ## children that have ended -/

theorem applyChild (hs : Safeguard env I G) (hw : I held w) (hi : G i) (n : Node)
    (child : Instance) (link : ChildLink) :
    Upholds (I held) (fun p _ => G p.record) (applyChild env i n child link) w := by
  have hremember := Instance.SameOrigin.rememberChild i child link.parentNodeId
  unfold Engine.applyChild
  dsimp only
  split
  · exact .pure hw (hs.origin hi (hremember.trans ⟨rfl, rfl, rfl, rfl, rfl, rfl, rfl⟩))
  · exact (hs.failInstance hw (hs.origin hi hremember) _).bind fun j v _ hv hj => .pure hv hj

theorem reconcile (hs : Safeguard env I G) (hw : I held w) (hi : G i) (n : Node) (o : Outcome) :
    Upholds (I held) (fun p _ => ∀ q, p = some q → G q.record) (reconcile env i n o) w := by
  refine .fromStore_bind ?_
  cases finishedChild? w.store o with
  | none => exact .pure hw fun q hq => nomatch hq
  | some found =>
    refine (hs.applyChild hw hi n found.1 found.2).bind fun p v _ hv hp => ?_
    cases p with
    | goesOn j =>
      refine (hs.persist hv hp).bind fun k u _ hu hk => .pure hu fun q hq => ?_
      cases hq
      exact hk
    | stopped j =>
      refine .pure hv fun q hq => ?_
      cases hq
      exact hp

/-! ## walks -/

theorem afterNode (hs : Safeguard env I G) (hw : I held w) (hi : G i) (d : Definition) (n : Node)
    (o : Outcome) : Upholds (I held) (fun next _ => G next.record) (afterNode env d i n o) w := by
  have hpark : ∀ {v}, I held v → Upholds (I held) (fun next _ => G next.record)
      (do return .stop (← Engine.park env i o) : Run EngineError Next) v := fun hv =>
    (hs.park hv hi o).bind fun j u _ hu hj => .pure hu hj
  have hdone : ∀ targets : List String, Upholds (I held) (fun next _ => G next.record)
      (if n.kind = .finish then return .visit [] i else return .visit targets i :
        Run EngineError Next) w := by
    intro targets
    split
    · exact .pure hw hi
    · exact .pure hw hi
  unfold Engine.afterNode
  split
  · exact hdone _
  · exact hdone _
  · exact hdone _
  · split
    · refine (hs.reconcile hw hi n o).bind fun p v _ hv hp => ?_
      rcases p with _ | (j | j)
      · exact hpark hv
      · exact .pure hv (hp _ rfl)
      · exact .pure hv (hp _ rfl)
    · exact hpark hw
  · exact (hs.failInstance hw hi _).bind fun j v _ hv hj => .pure hv hj

theorem aside {w' : World} (hs : Safeguard env I G) (hw : I held w) (h : Aside w w') :
    I held w' := hs.quiet hw h.core h.ids h.locks

/-- What a node does is kept within, that of its child included. -/
theorem ran (hs : Safeguard env I G) (hl : Safe env I launcher) (hw : I held w) {n : Node}
    {o : Outcome} {w' : World} (h : Node.Ran (contextOf env launcher i) n w o w') :
    w.ids ≤ w'.ids ∧ I held w' := by
  cases h with
  | apart h => exact ⟨h.ids, hs.aside hw h⟩
  | @refused _ _ r v _ e _ hc h _ hrun =>
    cases hc
    obtain ⟨hids, hkept, _⟩ := hl held r v (hs.aside hw h)
    rw [hrun] at hids hkept
    exact ⟨Nat.le_trans h.ids hids, hkept⟩
  | @launched _ _ r v v' _ l _ hc h _ hrun _ h' =>
    cases hc
    obtain ⟨hids, hkept, hanswer⟩ := hl held r v (hs.aside hw h)
    rw [hrun] at hids hkept hanswer
    exact ⟨Nat.le_trans h.ids (Nat.le_trans hids h'.ids),
      hs.aside (hs.link hkept (hanswer _ rfl)) h'⟩

theorem runNode (hs : Safeguard env I G) (hl : Safe env I launcher) (hw : I held w) (hi : G i)
    (n : Node) : Upholds (I held) (fun x _ => G x.2) (runNode env launcher i n) w := by
  have hsession : ∀ {v} (j : Instance), I held v → Upholds (I held) (fun _ _ => True)
      (inSession env j.vars (n.runWithRetries (contextOf env launcher j)) :
        Run EngineError (Outcome × Vars)) v := by
    intro v j hv
    obtain ⟨hids, hkept⟩ :=
      hs.ran hl hv (Node.runWithRetries_ran (contextOf env launcher j) n (sessionOf env j.vars v))
    exact .of_run (runFrom_inSession env _ _ v) hids hkept fun _ _ => trivial
  refine .lift_bind (Nat.le_refl _) (.lift_bind (Nat.le_refl _) ?_)
  refine (hsession _ (hs.emit hw)).bind fun x v _ hv _ => ?_
  refine .lift_bind (Nat.le_refl _) (.lift_bind (Nat.le_refl _) ?_)
  refine (hs.persist (hs.emit hv) ?_).bind fun j u _ hu hj => .pure hu hj
  exact hs.origin hi ⟨rfl, rfl, rfl, rfl, rfl, rfl, rfl⟩

/-- The induction is on the steps that are left. -/
theorem walk (hs : Safeguard env I G) (hl : Safe env I launcher) (hw : I held w) (hi : G i)
    (d : Definition) (steps : Nat) (pending : List String) :
    Upholds (I held) (fun j _ => G j) (walk env launcher d steps pending i) w := by
  induction steps generalizing pending i w with
  | zero =>
    cases pending with
    | nil => exact hs.enterStatus hw hi .completed
    | cons id pending =>
      unfold Engine.walk
      split
      · exact hs.failInstance hw hi _
      · exact hs.failInstance hw hi _
  | succ steps ih =>
    cases pending with
    | nil => exact hs.enterStatus hw hi .completed
    | cons id pending =>
      unfold Engine.walk
      split
      · exact hs.failInstance hw hi _
      · next n _ =>
        refine (hs.runNode hl hw hi n).bind fun x v _ hv hx => ?_
        refine (hs.afterNode hv hx d n x.1).bind fun next u _ hu hnext => ?_
        cases next with
        | visit targets j => exact ih hu hnext _
        | stop j => exact .pure hu hnext

/-! ## starts -/

/-- A new instance is walked, under its lock. -/
theorem startRun (hs : Safeguard env I G) (hl : Safe env I launcher) {r : StartRequest}
    {d : Definition} {pinned : Option String}
    (hw : I held ((starting env w).started (startedAs env r d pinned w) d))
    (hi : G (startedAs env r d pinned w)) :
    w.ids < (Engine.startRun env launcher r d pinned w).2.ids ∧
      I held (Engine.startRun env launcher r d pinned w).2 := by
  unfold Engine.startRun
  cases d.startNode? with
  | some n =>
    have hwalked := hs.walk hl hw hi d env.settings.maxStepsPerTraversal [n.id]
    exact ⟨hwalked.ids, hwalked.kept⟩
  | none =>
    have hfailed := hs.failInstance hw hi ("Workflow " ++ d.id ++ " has no start node")
    exact ⟨hfailed.ids, hfailed.kept⟩

theorem startWith (hs : Safeguard env I G) (hl : Safe env I launcher) :
    Safe env I (startWith env launcher) := by
  intro held r w hw
  rcases startWith_cases env launcher r w with ⟨e, hrun⟩ | ⟨d, pinned, hd, hrun⟩
  · exact .of_run hrun (Nat.le_refl _) hw fun _ ha => nomatch ha
  · obtain ⟨hi, hstarted⟩ := hs.create hw hd
    obtain ⟨hids, hkept⟩ := hs.startRun hl hstarted hi
    refine .of_run hrun (Nat.le_of_lt hids) (hs.release hkept) fun id hid => ?_
    exact ⟨w.ids, hids, (eq_of_map_ok hid).symm⟩

/-- The induction is on the levels. -/
theorem startWithin (hs : Safeguard env I G) (levels : Nat) :
    Safe env I (startWithin env levels) := by
  induction levels with
  | zero => exact fun held r w hw => .throw hw
  | succ levels ih => exact hs.startWith ih

theorem start (hs : Safeguard env I G) : Safe env I (start env) :=
  fun held r w hw => hs.startWithin _ held r w hw

/-! ## stored instances -/

theorem getInstance (hs : Safeguard env I G) (hw : I held w) (id : String) :
    Upholds (I held) (fun i _ => G i) (getInstance id) w := by
  cases hi : w.store.getInstance? id with
  | none =>
    exact .of_run (runFrom_getInstance_none hi) (Nat.le_refl _) hw fun _ ha => nomatch ha
  | some i =>
    refine .of_run (runFrom_getInstance hi) (Nat.le_refl _) hw fun j hj => ?_
    cases hj
    exact hs.read hw hi

theorem definitionFor (hw : I held w) (i : Instance) :
    Upholds (I held) (fun _ _ => True) (definitionFor i) w := by
  cases hd : definitionOf? w.store i with
  | none =>
    exact .of_run (runFrom_definitionFor_none hd) (Nat.le_refl _) hw fun _ ha => nomatch ha
  | some d => exact .of_run (runFrom_definitionFor hd) (Nat.le_refl _) hw fun _ _ => trivial

theorem getNode (hw : I held w) (d : Definition) (id : String) :
    Upholds (I held) (fun _ _ => True) (getNode d id) w := by
  cases hn : d.findNode? id with
  | none => exact .of_run (runFrom_getNode_none hn) (Nat.le_refl _) hw fun _ ha => nomatch ha
  | some n => exact .of_run (runFrom_getNode hn) (Nat.le_refl _) hw fun _ _ => trivial

theorem continueAfter (hs : Safeguard env I G) (hw : I held w) (hi : G i) (d : Definition)
    (n : Node) (nodeId : String) (route : Option String) :
    Upholds (I held) (fun j _ => G j) (continueAfter env d i n nodeId route) w := by
  refine .lift_bind (Nat.le_refl _) ?_
  refine (hs.persistStatus hw ?_).bind fun j v _ hv hj => hs.walk hs.start hv hj d _ _
  exact hs.origin hi ⟨rfl, rfl, rfl, rfl, rfl, rfl, rfl⟩

/-! ## parents -/

theorem wakeParent (hs : Safeguard env I G) (hw : I held w) (link : ChildLink) (child : Instance) :
    Upholds (I held) (fun j _ => G j) (wakeParent env link child) w := by
  refine (hs.getInstance hw link.parentId).bind fun parent v _ hv hparent => ?_
  refine (definitionFor hv parent).bind fun d v _ hv _ => ?_
  refine (getNode hv d link.parentNodeId).bind fun n v _ hv _ => ?_
  refine (hs.applyChild hv hparent n child link).bind fun p v _ hv hp => ?_
  cases p with
  | stopped j => exact .pure hv hp
  | goesOn j =>
    show Upholds (I held) _ (if j.status = .paused then _ else _) v
    split
    · exact hs.persist hv (hs.origin hp ⟨rfl, rfl, rfl, rfl, rfl, rfl, rfl⟩)
    · exact hs.continueAfter hv hp d n link.parentNodeId none

theorem isParkedOn (hw : I held w) (parentId childId : String) :
    Upholds (I held) (fun b v => b = true → ∃ parent, v.store.getInstance? parentId = some parent)
      (isParkedOn parentId childId) w := by
  refine .of_run (runFrom_isParkedOn parentId childId w) (Nat.le_refl _) hw fun b hb hparked => ?_
  cases hp : w.store.getInstance? parentId with
  | none =>
    rw [hp] at hb
    cases hb
    cases hparked
  | some parent => exact ⟨parent, rfl⟩

/-- The induction is on the fuel.  Nothing is held from one parent to the next. -/
theorem settle (hs : Safeguard env I G) (hw : I [] w) (fuel : Nat) (child : Instance) :
    Upholds (I []) (fun _ _ => True) (settle env fuel child) w := by
  induction fuel generalizing child w with
  | zero => exact .pure hw trivial
  | succ fuel ih =>
    unfold Engine.settle
    split
    · refine .fromStore_bind ?_
      cases w.store.getLink? child.id with
      | none => exact .pure hw trivial
      | some link =>
        refine (isParkedOn hw link.parentId child.id).bind fun b v _ hv hb => ?_
        split
        · next hparked =>
          obtain ⟨parent, hparent⟩ := hb hparked
          refine (Upholds.locked (J := I [link.parentId]) (S := fun _ => True) ?_
            fun u hu => hs.release hu).bind fun p u _ hu _ => ?_
          · refine (isParkedOn (hs.acquire hv hparent) link.parentId child.id).bind
              fun b v _ hv _ => ?_
            split
            · exact (hs.wakeParent hv link child).bind fun j u _ hu _ => .pure hu trivial
            · exact .pure hv trivial
          · cases p with
            | none => exact .pure hu trivial
            | some p => exact ih hu p
        · exact .pure hv trivial
    · exact .pure hw trivial

theorem finish (hs : Safeguard env I G) (hw : I [] w) (child : Instance) :
    Upholds (I []) (fun _ _ => True) (finish env child) w :=
  .lift_bind (Nat.le_refl _) (hs.settle hw _ child)

/-! ## operations -/

/-- what is done under the lock of a stored instance -/
theorem lockedInstance {α : Type} {S : α → Prop} {f : Instance → Run EngineError α}
    (hs : Safeguard env I G) (hw : I [] w) (id : String)
    (hf : ∀ i v, I [id] v → G i → Upholds (I [id]) (fun a _ => S a) (f i) v) :
    Upholds (I []) (fun a _ => S a) (Run.locked id (Engine.getInstance id >>= f)) w := by
  cases hi : w.store.getInstance? id with
  | none =>
    have hnone : (w.locked id).store.getInstance? id = none := hi
    have hbody := runFrom_bind_error (runFrom_getInstance_none hnone) f
    have hrun := runFrom_locked id (Engine.getInstance id >>= f) w
    rw [hbody] at hrun
    exact .of_run hrun (Nat.le_refl _) (hs.knock hw hi) fun _ ha => nomatch ha
  | some i =>
    refine Upholds.locked ?_ fun v hv => hs.release hv
    exact (hs.getInstance (hs.acquire hw hi) id).bind fun i v _ hv hi => hf i v hv hi

theorem resume (hs : Safeguard env I G) (hw : I [] w) (id nodeId : String) (data : Option Json) :
    Upholds (I []) (fun _ _ => True) (resume env id nodeId data) w := by
  refine (hs.lockedInstance (S := G) hw id fun i v hv hi => ?_).bind
    fun j v _ hv _ => hs.finish hv j
  split
  · refine (definitionFor hv i).bind fun d v _ hv _ => ?_
    refine (getNode hv d nodeId).bind fun n v _ hv _ => ?_
    exact hs.continueAfter hv (hs.origin hi (sameOrigin_withData i nodeId data)) d n nodeId _
  · exact .throw hv

theorem pause (hs : Safeguard env I G) (hw : I [] w) (id : String) :
    Upholds (I []) (fun _ _ => True) (pause env id) w := by
  refine hs.lockedInstance hw id fun i v hv hi => ?_
  split
  · exact .throw hv
  · split
    · exact .pure hv trivial
    · refine .lift_bind (Nat.le_refl _) ?_
      refine (hs.persistStatus hv ?_).bind fun j u _ hu _ => .pure hu trivial
      exact hs.origin hi ⟨rfl, rfl, rfl, rfl, rfl, rfl, rfl⟩

theorem cancel (hs : Safeguard env I G) (hw : I [] w) (id : String) :
    Upholds (I []) (fun _ _ => True) (cancel env id) w := by
  refine (hs.lockedInstance (S := G) hw id fun i v hv hi => ?_).bind
    fun j v _ hv _ => hs.finish hv j
  split
  · exact .throw hv
  · exact hs.enterStatus hv hi .cancelled

theorem stepNode (hs : Safeguard env I G) (hw : I [] w) (id nodeId : String) :
    Upholds (I []) (fun _ _ => True) (stepNode env id nodeId) w := by
  refine hs.lockedInstance hw id fun i v hv hi => ?_
  refine (definitionFor hv i).bind fun d v _ hv _ => ?_
  refine (getNode hv d nodeId).bind fun n v _ hv _ => ?_
  refine .lift_bind (Nat.le_refl _) ?_
  have hran := hs.ran hs.start hv (Node.attempt_ran (contextOf env (Engine.start env)
    { i with currentNodeId := some n.id }) n (sessionOf env i.vars v))
  refine (Upholds.of_run (runFrom_inSession env _ _ v) hran.1 hran.2
    (Q := fun _ _ => True) fun _ _ => trivial).bind fun x u _ hu _ => ?_
  refine .lift_bind (Nat.le_refl _) ?_
  refine (hs.persist hu ?_).bind fun j u _ hu _ => .pure hu trivial
  exact hs.origin hi ⟨rfl, rfl, rfl, rfl, rfl, rfl, rfl⟩

/-- **Every operation keeps what is safeguarded.** -/
theorem run (hs : Safeguard env I G) (hw : I [] w) (op : Operation) :
    Upholds (I []) (fun _ _ => True) (op.run env) w := by
  cases op with
  | start r => exact (hs.start [] r w hw).bind fun _ v _ hv _ => .pure hv trivial
  | resume id nodeId data => exact hs.resume hw id nodeId data
  | pause id => exact hs.pause hw id
  | cancel id => exact hs.cancel hw id
  | step id nodeId =>
    exact (hs.stepNode hw id nodeId).bind fun _ v _ hv _ => .pure hv trivial

end Safeguard
end Engine
end Workflows
