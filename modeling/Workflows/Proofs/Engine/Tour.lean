import Workflows.Proofs.Engine.Resumption
import Workflows.Proofs.Engine.Trail

/-!
# Tours

An instance is walked when it is started, when it is resumed, and when the end of a child is told to
it.  Each of these walks is a tour.

* `Tour`          a walk, the node behind which it has begun, and how it has ended
* `continueTour`  the tour of an instance that goes on behind a node
* `startTours`    the tour of an instance that is started
* `settleTours`   the tours of an instance while the end of another one is told
* `resumeTours`   the tours of an instance that a resumption makes

Main statement: an instance goes on behind a node as its tour says, and the tour agrees with its log
(`continueTour_charted`).
-/

namespace Workflows.Engine

structure Tour where
  /-- the definition as the walk has read it -/
  definition : Definition
  /-- the node behind which the walk has begun, if it has not begun at the start node -/
  behind : Option Done
  trail : Trail
  /-- the state of the instance after the walk -/
  status : InstanceStatus

/-- the nodes behind which the walk has gone on -/
def Tour.done (t : Tour) : List Done := t.behind.toList ++ t.trail.visits.filterMap Visited.done?

/-- what the walk has added to the log -/
def Tour.entries (t : Tour) : List (String × NodeStatus) := t.trail.visits.map Visited.entry

def toursOf : Except EngineError (Instance × Tour) × World → List Tour
  | (.ok (_, t), _) => [t]
  | (.error _, _) => []

section
variable (env : Env)

def tourFrom (launcher : Launcher) (d : Definition) (behind : Option Done) (pending : List String)
    (i : Instance) : Run EngineError (Instance × Tour) := do
  let (j, t) ← trail env launcher d env.settings.maxStepsPerTraversal pending i
  return (j, ⟨d, behind, t, j.status⟩)

/-- an instance goes on behind a node, and answers with its tour -/
def continueTour (d : Definition) (i : Instance) (n : Node) (nodeId : String)
    (route : Option String) : Run EngineError (Instance × Tour) := do
  let now ← env.now
  let i := i.setStatus .running now
  let i ← persistStatus env { i with nodeStatuses := Dict.insert i.nodeStatuses nodeId .completed }
  tourFrom env (start env) d (some ⟨n, route⟩) (d.nextNodes n route) i

/-! ## the tours of operations -/

/-- the tour of an instance that is started, unless its definition has no start node -/
def startTours (r : StartRequest) (w : World) : List Tour :=
  match requested? w.store r with
  | none => []
  | some (d, pinned) => match d.startNode? with
    | none => []
    | some n => toursOf (runFrom (tourFrom env (start env) d none [n.id]
        (startedAs env r d pinned w)) ((starting env w).started (startedAs env r d pinned w) d))

/-- the tour of a parent that is woken -/
def wakeTours (parent child : Instance) (link : ChildLink) (w : World) : List Tour :=
  match definitionOf? w.store parent with
  | none => []
  | some d => match d.findNode? link.parentNodeId with
    | none => []
    | some n =>
      if child.status = .completed ∧ parent.status ≠ .paused then
        toursOf (runFrom (continueTour env d (withOutputs parent child link) n link.parentNodeId
          none) w)
      else []

/-- the parent that waits for an instance, and their link -/
def waitedFor? (s : Store) (child : Instance) : Option (Instance × ChildLink) :=
  if child.status.isTerminal && child.parentId.isSome then do
    let link ← s.getLink? child.id
    let parent ← s.getInstance? link.parentId
    if parent.isParkedOn child.id then some (parent, link) else none
  else none

/-- the tours of an instance while the end of another one is told upward -/
def settleTours (id : String) : (fuel : Nat) → Instance → World → List Tour
  | 0, _, _ => []
  | fuel + 1, child, w =>
    match waitedFor? w.store child with
    | none => []
    | some (parent, link) =>
      (if link.parentId = id then wakeTours env parent child link (w.locked link.parentId)
        else []) ++
      match runFrom (lockedWake env link child) w with
      | (.ok (some j), u) => settleTours id fuel j u
      | (_, _) => []

def resumable? (s : Store) (id nodeId : String) : Option (Instance × Definition × Node) := do
  let i ← s.getInstance? id
  if i.status.isParked then
    let d ← definitionOf? s i
    let n ← d.findNode? nodeId
    some (i, d, n)
  else none

/-- the tours of an instance that the resumption of another one makes, or its own -/
def resumeTours (id other nodeId : String) (data : Option Json) (w : World) : List Tour :=
  match resumable? w.store other nodeId with
  | none => []
  | some (i, d, n) =>
    match runFrom (continueTour env d (withData i nodeId data) n nodeId (data.bind routeOf))
      (w.locked other) with
    | (.ok (j, t), u) => (if other = id then [t] else []) ++
        settleTours env id ((u.unlocked other).store.instances.length + 1) j (u.unlocked other)
    | (.error _, _) => []

end

variable {env : Env} {launcher : Launcher} {s : Store} {d : Definition} {w u : World}
  {id nodeId : String} {i j child parent stored : Instance} {link : ChildLink} {n : Node}
  {t : Trail} {ts : List Tour}

/-! ## they are the walks -/

theorem tourFrom_eq_walkFrom (d : Definition) (behind : Option Done) (pending : List String)
    (i : Instance) : (do return (← tourFrom env launcher d behind pending i).1) =
      walkFrom env launcher d pending i := by
  rw [walkFrom, ← trail_eq_walk]
  simp only [tourFrom, bind_assoc, pure_bind]

theorem continueTour_eq_continueAfter (d : Definition) (i : Instance) (n : Node) (nodeId : String)
    (route : Option String) : (do return (← continueTour env d i n nodeId route).1) =
      continueAfter env d i n nodeId route := by
  simp only [continueTour, continueAfter, bind_assoc, tourFrom_eq_walkFrom]

theorem runFrom_fst {α β : Type} {x : Run EngineError (α × β)} {y : Run EngineError α} {a : α}
    {b : β} (h : (do return (← x).1) = y) (hx : runFrom x w = (.ok (a, b), u)) :
    runFrom y w = (.ok a, u) := by
  rw [← h, runFrom_bind_ok hx]
  rfl

theorem waitedFor?_eq_some (hc : s.getInstance? child.id = some child) :
    waitedFor? s child = some (parent, link) ↔ WaitedFor s child parent link := by
  unfold waitedFor?
  constructor
  · intro h
    split at h
    · next hchild =>
      obtain ⟨ht, hp⟩ := Bool.and_eq_true_iff.mp hchild
      obtain ⟨l, hl, h⟩ := Option.bind_eq_some_iff.mp h
      obtain ⟨p, hparent, h⟩ := Option.bind_eq_some_iff.mp h
      split at h
      · next hparked =>
        cases h
        exact ⟨hc, ht, hp, hl, hparked, hparent⟩
      · cases h
    · cases h
  · intro h
    rw [h.terminal, h.hasParent, Bool.and_self, if_pos rfl, h.linked]
    show (s.getInstance? link.parentId).bind _ = _
    rw [h.parent, Option.bind_some, if_pos h.parked]

theorem resumable?_eq_some :
    resumable? s id nodeId = some (i, d, n) ↔ Resumable s id nodeId i d n := by
  unfold resumable?
  constructor
  · intro h
    obtain ⟨k, hk, h⟩ := Option.bind_eq_some_iff.mp h
    split at h
    · next hparked =>
      obtain ⟨e, he, h⟩ := Option.bind_eq_some_iff.mp h
      obtain ⟨m, hm, h⟩ := Option.bind_eq_some_iff.mp h
      cases h
      exact ⟨hk, hparked, he, hm⟩
    · cases h
  · intro h
    rw [h.stored]
    show (if i.status.isParked = true then _ else _) = _
    rw [if_pos h.parked, h.definition]
    show (d.findNode? nodeId).bind _ = _
    rw [h.node]
    rfl

theorem continueTour_charted (hf : Fresh env.idName w)
    (hi : w.store.getInstance? i.id = some stored) (hv : stored.version = i.version)
    (d : Definition) (n : Node) (nodeId : String) (route : Option String) :
    ∃ j t u, runFrom (continueTour env d i n nodeId route) w =
        (.ok (j, ⟨d, some ⟨n, route⟩, t, j.status⟩), u) ∧
      Has i.id j u ∧ j.status ≠ .running ∧ Charted d (d.nextNodes n route) i t j := by
  have hpersist : runFrom (persistStatus env (goingOn i nodeId (env.time w))) w = _ :=
    runFrom_persistStatus env hi hv
  have hcurrent : Current env.idName ⟨i.id, d⟩ [] ((goingOn i nodeId (env.time w)).written
      (env.time w)) (goneOn env i nodeId w) := goneOn_current hf hi
  obtain ⟨j, t, u, hrun, hj, ht⟩ := trail_charted start_starts env.settings.maxStepsPerTraversal
    (d.nextNodes n route) hcurrent
  refine ⟨j, t, u, ?_, hj.stretch.stored, hj.status, ht.entries, ht.pending, ht.selected,
    ht.status⟩
  unfold continueTour
  rw [runFrom_lift_bind]
  refine (runFrom_bind_ok hpersist _).trans ?_
  exact runFrom_bind_ok hrun _

end Workflows.Engine
