import Workflows.Proofs.Engine.Move
import Workflows.Proofs.Node.Ran

/-!
# Stretches of a walk

What happens between two records of one walk is a stretch of moves.

* `Ready`             ids are fresh, and the instances of all walks that are under way are stored
* `Current`           the record of the innermost walk is stored as it is held
* `Stretch`           moves that change this record only, and what was generated meanwhile
* `Starts`            what is asked of a launcher
* `WaitsForChild`     an outcome that waits for a stored and linked child

Main statement: a node with such a launcher has an outcome, and is a stretch (`runNode_stretch`).
-/

namespace Workflows

def Env.time (env : Env) (w : World) : Instant := env.epoch.addNanos w.ticks

theorem Definition.findNode?_id {d : Definition} {id : String} {n : Node}
    (h : d.findNode? id = some n) : n.id = id := by
  have := List.find?_some h
  exact of_decide_eq_true this

theorem Definition.findNode?_self {d : Definition} {id : String} {n : Node}
    (h : d.findNode? id = some n) : d.findNode? n.id = some n := by
  rw [findNode?_id h]
  exact h

/-- an error of a store -/
def EngineError.isStorage : EngineError → Bool
  | .storage _ => true
  | _ => false

namespace Engine

/-! ## runs of the parts -/

section
variable (env : Env) {i stored : Instance} {w : World}

theorem runFrom_persist_eq (i : Instance) (w : World) : runFrom (persist env i) w =
    match w.store.updateInstance { i with updatedAt := env.time w } with
    | .ok (store, stored) => (.ok stored, { w with store := store })
    | .error e => (.error (.storage e), { w with refusals := w.refusals.push e }) := by
  unfold persist
  rw [runFrom_lift_bind, runFrom_bind_ok (runFrom_get _)]
  show runFrom (match w.store.updateInstance { i with updatedAt := env.time w } with
    | .ok (store, stored) => _
    | .error e => _) w = _
  cases w.store.updateInstance { i with updatedAt := env.time w } with
  | ok written => rfl
  | error e => rfl

theorem runFrom_persist (h : w.store.getInstance? i.id = some stored)
    (hv : stored.version = i.version) :
    runFrom (persist env i) w = (.ok (i.written (env.time w)), w.put (i.written (env.time w))) := by
  have hu : w.store.updateInstance { i with updatedAt := env.time w } =
      .ok (w.store.insertInstance (i.written (env.time w)), i.written (env.time w)) :=
    Store.updateInstance_of_version h hv
  rw [runFrom_persist_eq, hu]
  rfl

theorem runFrom_persistStatus (h : w.store.getInstance? i.id = some stored)
    (hv : stored.version = i.version) : runFrom (persistStatus env i) w =
      (.ok (i.written (env.time w)), w.announce (i.written (env.time w)) (env.time w)) := by
  unfold persistStatus
  rw [runFrom_bind_ok (runFrom_persist env h hv)]
  rfl

/-- the session of a node that begins with some variables -/
def sessionOf (vars : Vars) (w : World) : Session :=
  { vars := vars, loops := { maxDepth := env.settings.maxLoopDepth }, world := w }

theorem runFrom_inSession {α : Type} (vars : Vars) (f : StateM Session α) (w : World) :
    runFrom (inSession env vars f : Run EngineError (α × Vars)) w =
      (.ok ((f.run (sessionOf env vars w)).1, (f.run (sessionOf env vars w)).2.vars),
        (f.run (sessionOf env vars w)).2.world) := rfl

end

/-! ## stretches -/

/-- Ids are fresh, and the instances of all walks that are under way are stored. -/
structure Ready (names : Nat → String) (fs : List Frame) (w : World) : Prop where
  fresh : Fresh names w
  frames : ∀ f ∈ fs, ∃ i, w.store.getInstance? f.instanceId = some i

theorem Ready.of_fresh {names : Nat → String} {w : World} (h : Fresh names w) : Ready names [] w :=
  ⟨h, fun _ hmem => nomatch hmem⟩

/-- The record of the innermost walk is stored as it is held, and runs. -/
structure Current (names : Nat → String) (f : Frame) (fs : List Frame) (i : Instance) (w : World) :
    Prop where
  ready : Ready names (f :: fs) w
  id : i.id = f.instanceId
  stored : w.store.getInstance? f.instanceId = some i
  running : i.status = .running

/-- Moves that change one record, and instances and links that were generated meanwhile. -/
structure Stretch (names : Nat → String) (maxLevel : Nat) (s s' : Scene) (i j : Instance) :
    Prop where
  moves : Moves names maxLevel s s'
  around : Around names (some i.id) s.world s'.world
  stored : s'.world.store.getInstance? i.id = some j
  origin : i.SameOrigin j

section
variable {names : Nat → String} {maxLevel : Nat} {f : Frame} {fs : List Frame} {i j k : Instance}
  {w w' : World} {s s' s'' : Scene}

theorem Stretch.trans (h : Stretch names maxLevel s s' i j)
    (h' : Stretch names maxLevel s' s'' j k) : Stretch names maxLevel s s'' i k := by
  have hid := h.origin.id
  refine ⟨h.moves.trans h'.moves, h.around.trans ?_, ?_, h.origin.trans h'.origin⟩
  · rw [← hid]
    exact h'.around
  · rw [← hid]
    exact h'.stored

theorem Ready.around {own : Option String} (h : Ready names fs w) (ha : Around names own w w')
    (ho : ∀ id, own = some id →
      (∃ i, w.store.getInstance? id = some i) ∧ ∃ i, w'.store.getInstance? id = some i) :
    Ready names fs w' := by
  refine ⟨ha.fresh h.fresh fun id hid => (ho id hid).1, fun f hf => ?_⟩
  obtain ⟨i, hi⟩ := h.frames f hf
  by_cases hown : own = some f.instanceId
  · exact (ho _ hown).2
  · exact ⟨i, ha.stored h.fresh hown hi⟩

theorem Ready.of_none (h : Ready names fs w) (ha : Around names none w w') : Ready names fs w' :=
  h.around ha fun _ hid => nomatch hid

theorem Current.after (h : Current names f fs i w)
    (hs : Stretch names maxLevel ⟨f :: fs, w⟩ ⟨f :: fs, w'⟩ i j) (hj : j.status = .running) :
    Current names f fs j w' := by
  have hstored := hs.stored
  rw [h.id] at hstored
  refine ⟨h.ready.around hs.around ?_, hs.origin.id.trans h.id, hstored, hj⟩
  intro id hid
  cases hid
  rw [h.id]
  exact ⟨⟨i, h.stored⟩, ⟨j, hstored⟩⟩

theorem Current.aside (h : Current names f fs i w)
    (hm : Moves names maxLevel ⟨f :: fs, w⟩ ⟨f :: fs, w'⟩) (ha : Around names none w w') :
    Stretch names maxLevel ⟨f :: fs, w⟩ ⟨f :: fs, w'⟩ i i := by
  refine ⟨hm, ha.of_none, ?_, Instance.SameOrigin.refl i⟩
  rw [h.id]
  exact ha.stored h.ready.fresh (fun he => nomatch he) h.stored

theorem Current.advance (h : Current names f fs i w) (ha : Advance w.store f.definition i j)
    (now : Instant) :
    Stretch names maxLevel ⟨f :: fs, w⟩ ⟨f :: fs, w.put (j.written now)⟩ i (j.written now) := by
  have hid : (j.written now).id = i.id := ha.sameOrigin.id
  refine ⟨.single (.advance h.stored h.id h.running ha now), ?_, World.getInstance?_put_self hid,
    ha.sameOrigin.written now⟩
  rw [← hid]
  exact Around.put w _

theorem Current.halt (h : Current names f fs i w) (ha : Halt w.store i j) (now : Instant) :
    Stretch names maxLevel ⟨f :: fs, w⟩ ⟨fs, w.announce (j.written now) now⟩ i (j.written now) := by
  have hid : (j.written now).id = i.id := ha.sameOrigin.id
  refine ⟨.single (.halt h.stored h.id h.running ha now), ?_, World.getInstance?_put_self hid,
    ha.sameOrigin.written now⟩
  rw [← hid]
  exact Around.announce w _ now

end

/-! ## launchers -/

/-- An instance that was started for a request, while other walks were under way. -/
structure Launched (names : Nat → String) (maxLevel : Nat) (fs : List Frame) (r : StartRequest)
    (w : World) (id : String) (w' : World) : Prop where
  walked : ∃ v d i, Quiet w v ∧ Created names maxLevel v r d i ∧ i.id = id ∧
    Moves names maxLevel ⟨⟨i.id, d⟩ :: fs, v.started i d⟩ ⟨fs, w'⟩
  around : Around names none w w'
  between : Between names w w' id
  unlinked : w'.store.getLink? id = none
  stored : ∃ i, w'.store.getInstance? id = some i ∧ i.id = id ∧ i.parentId = r.parentId ∧
    i.nestingLevel = r.nestingLevel

/-- A launcher refuses an instance and leaves the world as it is, or starts it and walks until it
waits or ends.  The store refuses nothing. -/
def Starts (names : Nat → String) (maxLevel : Nat) (launcher : Launcher) : Prop :=
  ∀ (fs : List Frame) (w : World) (r : StartRequest), Ready names fs w →
    (∃ e, runFrom (launcher r) w = (.error e, w) ∧ e.isStorage = false) ∨
      ∃ id w', runFrom (launcher r) w = (.ok id, w') ∧ Launched names maxLevel fs r w id w'

section
variable {names : Nat → String} {maxLevel : Nat} {launcher : Launcher} {f : Frame}
  {fs : List Frame} {r : StartRequest} {w w' : World} {id : String} {p : Instance} {l : ChildLink}

theorem Starts.of_error (hl : Starts names maxLevel launcher) (h : Ready names fs w)
    {e : EngineError} (hrun : runFrom (launcher r) w = (.error e, w')) : w' = w := by
  rcases hl fs w r h with ⟨e', he, _⟩ | ⟨id, v, he, _⟩
  · exact congrArg Prod.snd (hrun.symm.trans he)
  · rw [hrun] at he
    cases he

theorem Starts.of_ok (hl : Starts names maxLevel launcher) (h : Ready names fs w)
    (hrun : runFrom (launcher r) w = (.ok id, w')) : Launched names maxLevel fs r w id w' := by
  rcases hl fs w r h with ⟨e, he, _⟩ | ⟨id', v, he, hlaunched⟩
  · rw [hrun] at he
    cases he
  · rw [hrun] at he
    cases he
    exact hlaunched

/-- an instance that was started as a child of the innermost walk -/
theorem Launched.moves (h : Launched names maxLevel (f :: fs) r w id w')
    (hp : w.store.getInstance? f.instanceId = some p) (hid : p.id = f.instanceId)
    (hr : r.parentId = some p.id) (hl : r.nestingLevel = p.nestingLevel + 1) :
    Moves names maxLevel ⟨f :: fs, w⟩ ⟨f :: fs, w'⟩ := by
  obtain ⟨v, d, i, hquiet, hcreated, _, hmoves⟩ := h.walked
  have hcreate : Move names maxLevel ⟨f :: fs, v⟩ ⟨⟨i.id, d⟩ :: f :: fs, v.started i d⟩ :=
    .create ((hquiet.getInstance? _).trans hp) hid hr hl hcreated
  exact .head (.quiet hquiet) (.head hcreate hmoves)

/-- the new instance is none of those whose walks are under way -/
theorem Launched.unwalked (h : Launched names maxLevel fs r w id w') (hready : Ready names fs w)
    (hf : f ∈ fs) : f.instanceId ≠ id := by
  rintro rfl
  obtain ⟨i, hi⟩ := hready.frames f hf
  exact hready.fresh.not_between_of_stored hi h.between

/-- a link that joins the new instance to the node it was started for -/
theorem Launched.links (h : Launched names maxLevel fs r w l.childId w') (hready : Ready names fs w)
    (hr : r.parentId = some p.id) (hlevel : r.nestingLevel = p.nestingLevel + 1)
    (hp : l.parentId = p.id) (hl : l.nestingLevel = r.nestingLevel) {d : Definition} {n : Node}
    (hn : d.findNode? l.parentNodeId = some n) (hk : n.kind = .subprocess) : Links fs d w' p l := by
  obtain ⟨child, hchild, _, hparent, hnesting⟩ := h.stored
  exact ⟨hp, ⟨n, hn, hk⟩, ⟨child, hchild, hparent.trans hr, hnesting.trans hlevel⟩, hl.trans hlevel,
    h.unlinked, fun _ hf => h.unwalked hready hf⟩

theorem Launched.around_link (h : Launched names maxLevel fs r w l.childId w') :
    Around names none w (w'.link l) := by
  refine ⟨h.around.ids, h.around.instances, fun id hb => ?_⟩
  have hne : id ≠ l.childId := by
    rintro rfl
    exact hb h.between
  rw [World.getLink?_link, if_neg hne]
  exact h.around.links id hb

end

/-! ## nodes -/

/-- An outcome that waits for a stored child, which a stored link joins to a node of an instance. -/
structure WaitsForChild (s : Store) (p : Instance) (n : Node) (o : Outcome) (child : Instance)
    (link : ChildLink) : Prop where
  wait : o.wait = some ⟨.subprocess, link.childId, none⟩
  stored : s.getInstance? link.childId = some child
  id : child.id = link.childId
  linked : s.getLink? link.childId = some link
  parent : link.parentId = p.id
  node : link.parentNodeId = n.id
  other : link.childId ≠ p.id

/-- How the outcome of a node agrees with its kind. -/
structure Fits (s : Store) (p : Instance) (n : Node) (o : Outcome) : Prop where
  subprocess : n.kind = .subprocess → o.status = .waiting →
    ∃ child link, WaitsForChild s p n o child link
  other : n.kind ≠ .subprocess → o.Childless

variable {names : Nat → String} {launcher : Launcher} {f : Frame} {fs : List Frame} {w w' : World}
  {env : Env}

/-- What a node does to a world is made of moves, and leaves every record alone but new ones. -/
theorem ran_moves (hl : Starts names env.settings.maxNestingLevel launcher) {i p : Instance}
    (hready : Ready names (f :: fs) w) (hp : w.store.getInstance? f.instanceId = some p)
    (hid : p.id = f.instanceId) (hi : p.SameOrigin i) {n : Node}
    (hn : f.definition.findNode? n.id = some n) {o : Outcome}
    (h : Node.Ran (contextOf env launcher i) n w o w') :
    Moves names env.settings.maxNestingLevel ⟨f :: fs, w⟩ ⟨f :: fs, w'⟩ ∧ Around names none w w' ∧
      Fits w'.store p n o := by
  cases h with
  | apart h ho hs =>
    refine ⟨.single (.quiet h.quiet), Around.of_quiet h.quiet, fun hk hw => ?_, fun _ => ho⟩
    rw [hs hk] at hw
    cases hw
  | refused hk hc h hr hrun hs ho =>
    cases hc
    cases hl.of_error (hready.of_none (Around.of_quiet h.quiet)) hrun
    refine ⟨.single (.quiet h.quiet), Around.of_quiet h.quiet, fun _ hw => ?_,
      fun hk' => absurd hk hk'⟩
    rw [hs] at hw
    cases hw
  | @launched _ _ r v v' _ l hk hc h hr hrun hj h' hs ho =>
    cases hc
    have hv := hready.of_none (Around.of_quiet h.quiet)
    have hstored := (h.getInstance? f.instanceId).trans hp
    have hparent : r.parentId = some p.id := hr.parent.trans (congrArg some hi.id)
    have hlevel : r.nestingLevel = p.nestingLevel + 1 :=
      hr.level.trans (congrArg (· + 1) hi.nestingLevel)
    have hjoined : l.parentId = p.id := hj.parent.trans hi.id
    have hlaunched := hl.of_ok hv hrun
    obtain ⟨child, hchild, hcid, _⟩ := hlaunched.stored
    refine ⟨?_, ?_, fun _ _ => ⟨child, l, ?_⟩, fun hk' => absurd hk hk'⟩
    · have hp' := hlaunched.around.stored hv.fresh (fun he => nomatch he) hstored
      have hlinks := hlaunched.links hv hparent hlevel hjoined hj.level (hj.node ▸ hn) hk
      have hquiet : Moves names env.settings.maxNestingLevel ⟨f :: fs, w⟩ ⟨f :: fs, v⟩ :=
        .single (.quiet h.quiet)
      have hwalk := hlaunched.moves hstored hid hparent hlevel
      exact ((hquiet.trans hwalk).tail (.link hp' hid hlinks)).tail (.quiet h'.quiet)
    · have hlink : Around names none w (v'.link l) :=
        (Around.of_quiet h.quiet).trans hlaunched.around_link
      exact hlink.trans (Around.of_quiet h'.quiet)
    · have hother := hlaunched.unwalked hv List.mem_cons_self
      refine ⟨ho, ?_, hcid, ?_, hjoined, hj.node, fun he => hother (hid.symm.trans he.symm)⟩
      · rw [h'.getInstance?]
        exact hchild
      · rw [h'.getLink?, World.getLink?_link, if_pos rfl]

/-! ## nodes of a walk -/

section
variable (env : Env) (launcher : Launcher) (i : Instance) (n : Node)

def begun (w : World) : World := ((env.emit i.id (.nodeStarted n.id n.kind.name)).run w).2

def nodeRun (w : World) : Outcome × Session :=
  (n.runWithRetries (contextOf env launcher { i with currentNodeId := some n.id })).run
    (sessionOf env i.vars (begun env i n w))

/-- the world in which the outcome of the node is known -/
def ended (w : World) : World :=
  ((env.emit i.id ((nodeRun env launcher i n w).1.happening n.id)).run
    (nodeRun env launcher i n w).2.world).2

/-- the record of the instance with the outcome of the node -/
def recorded (w : World) : Instance :=
  ({ i with
      currentNodeId := some n.id
      vars := (nodeRun env launcher i n w).2.vars } : Instance).record n
    (nodeRun env launcher i n w).1 (env.time (begun env i n w))
    (env.time (nodeRun env launcher i n w).2.world)

theorem begun_quiet (w : World) : Quiet w (begun env i n w) := Quiet.emit env i.id _ rfl w

theorem ended_quiet (w : World) :
    Quiet (nodeRun env launcher i n w).2.world (ended env launcher i n w) := by
  refine Quiet.emit env i.id _ ?_ _
  unfold Outcome.happening
  split <;> rfl

theorem runFrom_runNode {w : World}
    (h : (ended env launcher i n w).store.getInstance? i.id = some i) :
    runFrom (runNode env launcher i n) w =
      (.ok ((nodeRun env launcher i n w).1,
        (recorded env launcher i n w).written (env.time (ended env launcher i n w))),
        (ended env launcher i n w).put
          ((recorded env launcher i n w).written (env.time (ended env launcher i n w)))) := by
  have hpersist :
      runFrom (persist env (recorded env launcher i n w)) (ended env launcher i n w) = _ :=
    runFrom_persist env h rfl
  unfold runNode
  rw [runFrom_lift_bind, runFrom_lift_bind, runFrom_bind_ok (runFrom_inSession env _ _ _)]
  show runFrom (do
    let completedAt ← env.now
    env.emit i.id ((nodeRun env launcher i n w).1.happening n.id)
    let j ← persist env (({ i with
        currentNodeId := some n.id
        vars := (nodeRun env launcher i n w).2.vars } : Instance).record n
      (nodeRun env launcher i n w).1 (env.time (begun env i n w)) completedAt)
    return ((nodeRun env launcher i n w).1, j) : Run EngineError (Outcome × Instance))
      (nodeRun env launcher i n w).2.world = _
  rw [runFrom_lift_bind, runFrom_lift_bind]
  exact runFrom_bind_ok hpersist _

end

variable {names : Nat → String} {launcher : Launcher} {f : Frame} {fs : List Frame} {w w' : World}
  {env : Env} {i : Instance} {n : Node}

theorem Fits.after {s s' : Store} {p : Instance} {o : Outcome} (h : Fits s p n o) {j : Instance}
    (hid : j.id = p.id) (hi : ∀ id, id ≠ p.id → s'.getInstance? id = s.getInstance? id)
    (hl : ∀ id, s'.getLink? id = s.getLink? id) : Fits s' j n o := by
  refine ⟨fun hk hw => ?_, h.other⟩
  obtain ⟨child, link, hc⟩ := h.subprocess hk hw
  refine ⟨child, link, hc.wait, ?_, hc.id, ?_, hc.parent.trans hid.symm, hc.node, ?_⟩
  · rw [hi _ hc.other]
    exact hc.stored
  · rw [hl]
    exact hc.linked
  · rw [hid]
    exact hc.other

theorem nodeRun_ran (env : Env) (launcher : Launcher) (i : Instance) (n : Node) (w : World) :
    Node.Ran (contextOf env launcher { i with currentNodeId := some n.id }) n (begun env i n w)
      (nodeRun env launcher i n w).1 (nodeRun env launcher i n w).2.world :=
  Node.runWithRetries_ran _ n (sessionOf env i.vars (begun env i n w))

/-- up to the write of its record a node is a stretch that leaves the instance alone -/
theorem ended_stretch (hl : Starts names env.settings.maxNestingLevel launcher)
    (h : Current names f fs i w) (hn : f.definition.findNode? n.id = some n) :
    Stretch names env.settings.maxNestingLevel ⟨f :: fs, w⟩
        ⟨f :: fs, ended env launcher i n w⟩ i i ∧
      Fits (nodeRun env launcher i n w).2.world.store i n (nodeRun env launcher i n w).1 := by
  have hbegun := begun_quiet env i n w
  have hended := ended_quiet env launcher i n w
  have hready : Ready names (f :: fs) (begun env i n w) := h.ready.of_none (Around.of_quiet hbegun)
  have hstored := (hbegun.getInstance? f.instanceId).trans h.stored
  obtain ⟨hmoves, haround, hfits⟩ := ran_moves hl hready hstored h.id
    ⟨rfl, rfl, rfl, rfl, rfl, rfl, rfl⟩ hn (nodeRun_ran env launcher i n w)
  refine ⟨h.aside ?_ (((Around.of_quiet hbegun).trans haround).trans (Around.of_quiet hended)),
    hfits⟩
  have hquiet : Moves names env.settings.maxNestingLevel ⟨f :: fs, w⟩ ⟨f :: fs, begun env i n w⟩ :=
    .single (.quiet hbegun)
  exact (hquiet.trans hmoves).tail (.quiet hended)

theorem runNode_stretch (hl : Starts names env.settings.maxNestingLevel launcher)
    (h : Current names f fs i w) (hn : f.definition.findNode? n.id = some n) :
    ∃ o j w', runFrom (runNode env launcher i n) w = (.ok (o, j), w') ∧
      Stretch names env.settings.maxNestingLevel ⟨f :: fs, w⟩ ⟨f :: fs, w'⟩ i j ∧
      j.status = .running ∧ Fits w'.store j n o := by
  have hended := ended_quiet env launcher i n w
  obtain ⟨hnode, hfits⟩ := ended_stretch hl h hn
  refine ⟨_, _, _, runFrom_runNode env launcher i n hnode.stored,
    hnode.trans ((h.after hnode h.running).advance (.record _ _ _ _ hn) _), h.running,
    hfits.after rfl ?_ ?_⟩
  · intro id hid
    rw [World.getInstance?_put_of_ne]
    · exact hended.getInstance? id
    · exact hid
  · intro id
    exact hended.getLink? id

end Engine
end Workflows
