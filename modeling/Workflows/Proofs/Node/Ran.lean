import Workflows.Engine.Attempt
import Workflows.Proofs.Node.Made

/-!
# What a node may do

* `ChildRequested`   the requests that a node makes for a child
* `Ran`              the outcomes of a node and the worlds after it: it leaves instances alone, or
                     its launcher refuses a child, or its launcher starts a child and the node adds
                     the link

Main statement: every run of a node is one of these, its repetitions included
(`runWithRetries_ran`).
-/

namespace Workflows

namespace Store

theorem getWorkflow?_of_core {s t : Store} (h : t.core = s.core) (id : String) :
    t.getWorkflow? id = s.getWorkflow? id := by
  have hw : t.workflows = s.workflows := congrArg Core.workflows h
  rw [getWorkflow?, getWorkflow?, hw]

theorem listVersions_of_core {s t : Store} (h : t.core = s.core) (id : String) :
    t.listVersions id = s.listVersions id := by
  have hv : t.versions = s.versions := congrArg Core.versions h
  rw [listVersions, listVersions, hv]

theorem resolvePinned?_of_core {s t : Store} (h : t.core = s.core) (workflowId token : String) :
    t.resolvePinned? workflowId token = s.resolvePinned? workflowId token := by
  rw [resolvePinned?, resolvePinned?, getWorkflow?_of_core h, listVersions_of_core h]

theorem resolve?_of_core {s t : Store} (h : t.core = s.core) (workflowId token : String) :
    t.resolve? workflowId token = s.resolve? workflowId token := by
  rw [resolve?, resolve?, resolvePinned?_of_core h]

theorem validate_of_core {s t : Store} (h : t.core = s.core) (workflowId token : String) :
    t.validate workflowId token = s.validate workflowId token := by
  rw [validate, validate, resolve?_of_core h]

end Store

namespace Node
open NodeRun

/-- A request for a child of the instance of a context. -/
structure ChildRequested (c : NodeContext) (s : Store) (r : StartRequest) : Prop where
  parent : r.parentId = some c.instanceId
  level : r.nestingLevel = c.nestingLevel + 1
  bound : r.nestingLevel ≤ c.env.settings.maxNestingLevel
  valid : ∃ token, r.workflowVersion = some token ∧ (s.validate r.workflowId token).valid = true

/-- A link of a node to the child that was started for a request. -/
structure Joins (c : NodeContext) (n : Node) (r : StartRequest) (l : ChildLink) : Prop where
  parent : l.parentId = c.instanceId
  node : l.parentNodeId = n.id
  level : l.nestingLevel = r.nestingLevel
  mapping : ∃ s, SubprocessSettings.decode (if n.data.isNull then .obj [] else n.data) = some s ∧
    l.outputMapping = s.outputMapping

/-- The ways in which a child is asked for, from a session to an answer. -/
inductive Asked (c : NodeContext) (launcher : Launcher) (n : Node) (w : World) :
    Except NodeError ChildLink × Session → Prop
  | apart {e : NodeError} {s : Session} (h : Aside w s.world) : Asked c launcher n w (.error e, s)
  | refused {e : NodeError} {s : Session} {r : StartRequest} {v : World} {e' : EngineError}
    (h : Aside w v) (hr : ChildRequested c v.store r)
    (hl : runFrom (launcher r) v = (.error e', s.world)) : Asked c launcher n w (.error e, s)
  | launched {l : ChildLink} {s : Session} {r : StartRequest} {v v' : World} (h : Aside w v)
    (hr : ChildRequested c v.store r) (hl : runFrom (launcher r) v = (.ok l.childId, v'))
    (hj : Joins c n r l) (h' : Aside (v'.link l) s.world) : Asked c launcher n w (.ok l, s)

theorem Asked.after {c : NodeContext} {launcher : Launcher} {n : Node} {u w : World}
    {x : Except NodeError ChildLink × Session} (h : Aside u w) (hx : Asked c launcher n w x) :
    Asked c launcher n u x := by
  cases hx with
  | apart h' => exact .apart (h.trans h')
  | refused h' hr hl => exact .refused (h.trans h') hr hl
  | launched h' hr hl hj hw => exact .launched (h.trans h') hr hl hj hw

/-- a step that leaves instances alone before a child is asked for -/
theorem Asked.bind {α : Type} {c : NodeContext} {launcher : Launcher} {n : Node} {x : NodeRun α}
    {f : α → NodeRun ChildLink} {Q : α → Prop} (hx : Apart Q x) (s : Session)
    (hf : ∀ a s', Q a → Aside s.world s'.world → Asked c launcher n s'.world (runFrom (f a) s')) :
    Asked c launcher n s.world (runFrom (x >>= f) s) := by
  obtain ⟨haside, hans⟩ := hx s
  rw [runFrom_bind]
  rcases hr : runFrom x s with ⟨r, s'⟩
  rw [hr] at haside hans
  cases r with
  | ok a => exact (hf a s' (hans a rfl) haside).after haside
  | error e => exact .apart haside

theorem warnAll_made (c : NodeContext) (n : Node) (ws : List String) :
    Made c Unconditional (warnAll c n ws) := by
  induction ws with
  | nil => exact Made.pure trivial
  | cons w ws ih => exact (Made.warn n w).next fun _ => ih

theorem validate_made (c : NodeContext) (workflowId token : String) :
    Made c Unconditional (NodeRun.fromStore (·.validate workflowId token)) :=
  Made.fromStore fun _ _ => rfl

theorem childLevel_made (c : NodeContext) (max level : Nat) :
    Made c (fun l => l = level + 1 ∧ l ≤ max) (liftM (childLevel max level) : NodeRun Nat) := by
  unfold childLevel
  split
  · next h => exact Made.pure ⟨rfl, h⟩
  · exact Made.throw _ _

/-- what a launcher does is what the launch does to the world -/
theorem launch_world (launcher : Launcher) (r : StartRequest) (s : Session) :
    (∃ id w, runFrom (launcher r) s.world = (.ok id, w) ∧
      runFrom (launch launcher r) s =
        (.ok id, { s with launched := s.launched.push r, world := w })) ∨
    (∃ e w e', runFrom (launcher r) s.world = (.error e, w) ∧
      runFrom (launch launcher r) s =
        (.error e', { s with launched := s.launched.push r, world := w })) := by
  have h : runFrom (NodeRun.onWorld (launcher r).run) { s with launched := s.launched.push r } =
      (.ok (runFrom (launcher r) s.world).1,
        { s with launched := s.launched.push r, world := (runFrom (launcher r) s.world).2 }) := rfl
  unfold launch
  rw [runFrom_bind_ok (runFrom_modify _ s), runFrom_bind_ok h]
  rcases hr : runFrom (launcher r) s.world with ⟨a, w⟩
  cases a with
  | ok id => exact .inl ⟨id, w, rfl, rfl⟩
  | error e => exact .inr ⟨e, w, _, rfl, rfl⟩

theorem startChild_asked (c : NodeContext) (launcher : Launcher) (n : Node) (s : Session) :
    Asked c launcher n s.world (runFrom (startChild c launcher n) s) := by
  unfold startChild
  refine Asked.bind (Made.decoded (c := c) n _).apart s fun settings s hsettings _ => ?_
  refine Asked.bind (Made.demand (c := c) _ _).apart s fun workflowId s _ _ => ?_
  refine Asked.bind (childLevel_made c _ _).apart s fun level s hlevel _ => ?_
  have hvalidate : runFrom (fromStore (·.validate workflowId (settings.version.getD latestToken)) :
      NodeRun ValidationReport) s =
      (.ok (s.world.store.validate workflowId (settings.version.getD latestToken)), s) := rfl
  rw [runFrom_bind_ok hvalidate]
  refine Asked.bind (warnAll_made c n _).apart s fun _ s' _ hs' => ?_
  split
  · next hvalid =>
    refine Asked.bind (Made.vars (c := c)).apart s' fun vs s _ hs => ?_
    have hr : ChildRequested c s.world.store (childRequest c settings vs workflowId
        (settings.version.getD latestToken) level) := by
      refine ⟨rfl, hlevel.1, hlevel.2, _, rfl, ?_⟩
      rw [← hvalid]
      exact congrArg ValidationReport.valid (Store.validate_of_core (hs.core.trans hs'.core) _ _)
    rcases launch_world launcher (childRequest c settings vs workflowId
        (settings.version.getD latestToken) level) s with
      ⟨id, w, hl, hlaunch⟩ | ⟨e, w, e', hl, hlaunch⟩
    · rw [runFrom_bind_ok hlaunch]
      exact .launched (Aside.refl _) hr hl ⟨rfl, rfl, rfl, settings, hsettings, rfl⟩
        (Aside.of_events rfl (Nat.le_refl _) rfl rfl rfl)
    · rw [runFrom_bind_error hlaunch]
      exact .refused (Aside.refl _) hr hl
  · exact .apart (Aside.refl _)

/-! ### outcomes -/

/-- What a node does to the world, and its outcome. -/
inductive Ran (c : NodeContext) (n : Node) (w : World) : Outcome → World → Prop
  /-- it leaves instances alone; a subprocess node does so only if it fails -/
  | apart {o : Outcome} {w' : World} (h : Aside w w') (ho : o.Childless)
    (hs : n.kind = .subprocess → o.status = .failed) : Ran c n w o w'
  /-- the launcher refuses to start a child -/
  | refused {launcher : Launcher} {o : Outcome} {r : StartRequest} {v w' : World} {e : EngineError}
    (hk : n.kind = .subprocess) (hc : c.launcher = some launcher) (h : Aside w v)
    (hr : ChildRequested c v.store r) (hl : runFrom (launcher r) v = (.error e, w'))
    (hs : o.status = .failed) (ho : o.wait = none) : Ran c n w o w'
  /-- the launcher starts a child, and the node waits for it -/
  | launched {launcher : Launcher} {o : Outcome} {r : StartRequest} {v v' w' : World}
    {l : ChildLink} (hk : n.kind = .subprocess) (hc : c.launcher = some launcher) (h : Aside w v)
    (hr : ChildRequested c v.store r) (hl : runFrom (launcher r) v = (.ok l.childId, v'))
    (hj : Joins c n r l) (h' : Aside (v'.link l) w') (hs : o.status = .waiting)
    (ho : o.wait = some ⟨.subprocess, l.childId, none⟩) : Ran c n w o w'

/-- the outcome of the computation of a node -/
def outcomeOf : Except NodeError Outcome → Outcome
  | .ok o => o
  | .error e => .failed e.message

theorem subprocess_ran (c : NodeContext) (n : Node) (hk : n.kind = .subprocess) (s : Session) :
    Ran c n s.world (outcomeOf (runFrom (n.subprocess c) s).1)
      (runFrom (n.subprocess c) s).2.world := by
  unfold subprocess
  cases hc : c.launcher with
  | none => exact .apart (Aside.refl _) (Outcome.childless_of_none rfl nofun) fun _ => rfl
  | some launcher =>
    simp only
    have h := startChild_asked c launcher n s
    rcases hr : runFrom (startChild c launcher n) s with ⟨r, s'⟩
    rw [hr] at h
    rw [runFrom_bind, hr]
    cases h with
    | apart h => exact .apart h (Outcome.childless_of_none rfl nofun) fun _ => rfl
    | refused h hreq hl => exact .refused hk hc h hreq hl rfl rfl
    | @launched l s r v v' h hreq hl hj h' =>
      have hinfo := ((Made.info (c := c) n ("Started child instance " ++ l.childId)).apart s').1
      exact .launched hk hc h hreq hl hj (h'.trans hinfo) rfl rfl

theorem execute_run (c : NodeContext) (n : Node) (s : Session) :
    (n.execute c).run s = (outcomeOf (runFrom (n.handle c) s).1, (runFrom (n.handle c) s).2) := by
  unfold execute
  show (match (runFrom (n.handle c) s).1 with
    | .ok outcome => (pure outcome : StateM Session Outcome)
    | .error e => return .failed e.message).run (runFrom (n.handle c) s).2 = _
  cases (runFrom (n.handle c) s).1 with
  | ok o => rfl
  | error e => rfl

theorem execute_ran (c : NodeContext) (n : Node) (s : Session) :
    Ran c n s.world ((n.execute c).run s).1 ((n.execute c).run s).2.world := by
  rw [execute_run]
  by_cases hk : n.kind = .subprocess
  · have hh : n.handle c = n.subprocess c := by rw [handle, hk]
    rw [hh]
    exact subprocess_ran c n hk s
  · obtain ⟨haside, hans⟩ := handle_apart c n hk s
    refine .apart haside ?_ fun hk' => absurd hk' hk
    cases hr : (runFrom (n.handle c) s).1 with
    | ok o => exact hans o hr
    | error e => exact Outcome.childless_of_none rfl nofun

/-! ### repetitions -/

theorem attempt_ran (c : NodeContext) (n : Node) (s : Session) :
    Ran c n s.world ((n.attempt c).run s).1 ((n.attempt c).run s).2.world :=
  execute_ran c n { s with loops := { maxDepth := c.env.settings.maxLoopDepth } }

theorem Ran.retries {c : NodeContext} {n : Node} {w w' : World} {o : Outcome} (h : Ran c n w o w')
    (k : Nat) : Ran c n w { o with retries := k } w' := by
  cases h with
  | apart h ho hs => exact .apart h ⟨ho.kind, ho.named⟩ hs
  | refused hk hc h hr hl hs ho => exact .refused hk hc h hr hl hs ho
  | launched hk hc h hr hl hj h' hs ho => exact .launched hk hc h hr hl hj h' hs ho

/-- any node but a subprocess leaves instances alone -/
theorem Ran.isApart {c : NodeContext} {n : Node} {w w' : World} {o : Outcome} (h : Ran c n w o w')
    (hk : n.kind ≠ .subprocess) : Aside w w' ∧ o.Childless := by
  cases h with
  | apart h ho => exact ⟨h, ho⟩
  | refused hk' => exact absurd hk' hk
  | launched hk' => exact absurd hk' hk

theorem noteRetry_aside (c : NodeContext) (n : Node) (number : Nat) (error : String) (s : Session) :
    Aside s.world ((n.noteRetry c number error).run s).2.world :=
  Aside.emit c.env c.instanceId (.nodeRetrying n.id number error) rfl s.world

theorem retrying_zero_run {σ : Type} (attempt : StateM σ Outcome)
    (note : Nat → String → StateM σ Unit) (retries : Nat) (s : σ) :
    (retrying attempt note 0 retries).run s =
      ({ (attempt.run s).1 with retries := retries }, (attempt.run s).2) := rfl

theorem retrying_succ_run {σ : Type} (attempt : StateM σ Outcome)
    (note : Nat → String → StateM σ Unit) (left retries : Nat) (s : σ) :
    (retrying attempt note (left + 1) retries).run s =
      match (attempt.run s).1.transientError? with
      | some error =>
        (retrying attempt note left (retries + 1)).run
          ((note (retries + 1) error).run (attempt.run s).2).2
      | none => ({ (attempt.run s).1 with retries := retries }, (attempt.run s).2) := by
  show (match (attempt.run s).1.transientError? with
    | some error => (do
      note (retries + 1) error
      retrying attempt note left (retries + 1))
    | none => return { (attempt.run s).1 with retries := retries } : StateM σ Outcome).run
      (attempt.run s).2 = _
  cases (attempt.run s).1.transientError? with
  | some error => rfl
  | none => rfl

/-- A node that is run again leaves instances alone all the time. -/
theorem retrying_ran (c : NodeContext) (n : Node) (hk : n.kind ≠ .subprocess) (left retries : Nat)
    (s : Session) : Ran c n s.world ((retrying (n.attempt c) (n.noteRetry c) left retries).run s).1
      ((retrying (n.attempt c) (n.noteRetry c) left retries).run s).2.world := by
  induction left generalizing retries s with
  | zero => exact (attempt_ran c n s).retries retries
  | succ left ih =>
    have hrun := attempt_ran c n s
    rw [retrying_succ_run]
    cases ((n.attempt c).run s).1.transientError? with
    | none => exact hrun.retries retries
    | some error =>
      have hnote := noteRetry_aside c n (retries + 1) error ((n.attempt c).run s).2
      obtain ⟨hrest, ho⟩ := (ih (retries + 1) _).isApart hk
      exact .apart (((hrun.isApart hk).1.trans hnote).trans hrest) ho fun hk' => absurd hk' hk

/-- a child is not started twice -/
theorem retriesOf_subprocess (s : Settings) {n : Node} (hk : n.kind = .subprocess) :
    n.retriesOf s = 0 := by
  rw [retriesOf, hk]
  rfl

/-- **What a node may do, with its repetitions.** -/
theorem runWithRetries_ran (c : NodeContext) (n : Node) (s : Session) :
    Ran c n s.world ((n.runWithRetries c).run s).1 ((n.runWithRetries c).run s).2.world := by
  unfold runWithRetries
  by_cases hk : n.kind = .subprocess
  · rw [retriesOf_subprocess c.env.settings hk]
    exact (attempt_ran c n s).retries 0
  · exact retrying_ran c n hk _ _ s

end Node
end Workflows
