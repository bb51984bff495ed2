import Mathlib.Logic.Relation
import Workflows.Engine.Operations
import Workflows.Proofs.World

/-!
# Moves of the engine

An operation changes instances in small moves.  While walks are under way, each of them has a frame:
a child is walked to its end or its first wait inside the node that has started it, so the frames
are a stack.

* `Advance`      a record that is written while its walk goes on
* `Halt`         a record that is written when its walk is over
* `Move`         a change that walks make, one record or link at a time
* `Opening`      what an operation does to a stored instance before it walks
* `Deed`         an opening, and the walks behind it

What a walk can do is said here once; every invariant is a statement about moves.
-/

namespace Workflows

/-- a child is remembered beside the rest of a record -/
theorem Instance.rememberChild_eq (i child : Instance) (nodeId : String) :
    ∃ children, i.rememberChild child nodeId = { i with children := children } := by
  unfold Instance.rememberChild
  split
  · exact ⟨i.children, rfl⟩
  · exact ⟨_, rfl⟩

/-- Two records of one instance: what is fixed at its start is the same. -/
structure Instance.SameOrigin (i j : Instance) : Prop where
  id : j.id = i.id
  workflowId : j.workflowId = i.workflowId
  workflowVersion : j.workflowVersion = i.workflowVersion
  triggeredBy : j.triggeredBy = i.triggeredBy
  parentId : j.parentId = i.parentId
  nestingLevel : j.nestingLevel = i.nestingLevel
  startedAt : j.startedAt = i.startedAt

namespace Instance.SameOrigin
variable {i j k : Instance}

theorem refl (i : Instance) : SameOrigin i i := ⟨rfl, rfl, rfl, rfl, rfl, rfl, rfl⟩

theorem trans (h : SameOrigin i j) (h' : SameOrigin j k) : SameOrigin i k :=
  ⟨h'.id.trans h.id, h'.workflowId.trans h.workflowId, h'.workflowVersion.trans h.workflowVersion,
    h'.triggeredBy.trans h.triggeredBy, h'.parentId.trans h.parentId,
    h'.nestingLevel.trans h.nestingLevel, h'.startedAt.trans h.startedAt⟩

theorem written (h : SameOrigin i j) (now : Instant) : SameOrigin i (j.written now) :=
  ⟨h.id, h.workflowId, h.workflowVersion, h.triggeredBy, h.parentId, h.nestingLevel, h.startedAt⟩

theorem rememberChild (i child : Instance) (nodeId : String) :
    SameOrigin i (i.rememberChild child nodeId) := by
  obtain ⟨children, h⟩ := rememberChild_eq i child nodeId
  rw [h]
  exact ⟨rfl, rfl, rfl, rfl, rfl, rfl, rfl⟩

theorem definitionOf? (h : SameOrigin i j) (s : Store) :
    Engine.definitionOf? s j = Engine.definitionOf? s i := by
  rw [Engine.definitionOf?, Engine.definitionOf?, h.workflowVersion, h.workflowId]

end Instance.SameOrigin

namespace Engine

/-! ## children that are reported -/

/-- A finished child, and the link to its parent, as they are stored. -/
structure Reports (s : Store) (parentId : String) (child : Instance) (link : ChildLink) : Prop where
  stored : s.getInstance? child.id = some child
  terminal : child.status.isTerminal = true
  linked : s.getLink? child.id = some link
  parent : link.parentId = parentId

/-- a stored child of an instance that has not finished -/
def Awaited (s : Store) (parentId childId : String) : Prop :=
  ∃ child link, s.getInstance? childId = some child ∧ child.status.isTerminal = false ∧
    s.getLink? childId = some link ∧ link.parentId = parentId

/-- the parent with the outputs of a completed child -/
def withOutputs (i child : Instance) (link : ChildLink) : Instance :=
  takeOver (i.rememberChild child link.parentNodeId) child link.parentNodeId link

/-- the parent of a child that has not completed -/
def failedWith (i child : Instance) (link : ChildLink) (now : Instant) : Instance :=
  (i.rememberChild child link.parentNodeId).fail (childFailure child)
    (friendlyMessage (childFailure child)) now

/-- an instance that goes on behind a node -/
def goingOn (i : Instance) (nodeId : String) (now : Instant) : Instance :=
  { i.setStatus .running now with nodeStatuses := Dict.insert i.nodeStatuses nodeId .completed }

/-- a paused parent that has kept the outputs of a completed child -/
def noted (i child : Instance) (link : ChildLink) : Instance :=
  { withOutputs i child link with waitingFor := none }

/-- an instance that is held, with what it waits for -/
def held (i : Instance) (now : Instant) : Instance :=
  { i.setStatus .paused now with waitingFor := i.waitingFor }

/-! ## records of a walk -/

/-- A record that is written while its walk goes on. -/
inductive Advance (s : Store) (d : Definition) (i : Instance) : Instance → Prop
  /-- a node was run -/
  | record {n : Node} (o : Outcome) (vars : Vars) (startedAt completedAt : Instant)
    (hn : d.findNode? n.id = some n) :
    Advance s d i (({ i with currentNodeId := some n.id, vars := vars } : Instance).record n o
      startedAt completedAt)
  /-- a child has completed before the instance could wait for it -/
  | takeOver {child : Instance} {link : ChildLink} (h : Reports s i.id child link)
    (hc : child.status = .completed) : Advance s d i (withOutputs i child link)

/-- A record that is written when its walk is over. -/
inductive Halt (s : Store) (i : Instance) : Instance → Prop
  | wait (wait : Option Wait) (now : Instant)
    (h : ∀ w, wait = some w → w.kind = .subprocess → Awaited s i.id w.id)
    (hs : wait.isSome = true) : Halt s i { i.setStatus .waiting now with waitingFor := wait }
  | complete (now : Instant) : Halt s i (i.setStatus .completed now)
  | fail (error : String) (now : Instant) : Halt s i (i.fail error (friendlyMessage error) now)
  /-- a child has ended without completing before the instance could wait for it -/
  | failWith {child : Instance} {link : ChildLink} (h : Reports s i.id child link)
    (hc : child.status ≠ .completed) (now : Instant) : Halt s i (failedWith i child link now)

variable {s : Store} {d : Definition} {i j : Instance}

theorem sameOrigin_withOutputs (i child : Instance) (link : ChildLink) :
    i.SameOrigin (withOutputs i child link) :=
  (Instance.SameOrigin.rememberChild i child link.parentNodeId).trans
    ⟨rfl, rfl, rfl, rfl, rfl, rfl, rfl⟩

theorem sameOrigin_failedWith (i child : Instance) (link : ChildLink) (now : Instant) :
    i.SameOrigin (failedWith i child link now) :=
  (Instance.SameOrigin.rememberChild i child link.parentNodeId).trans
    ⟨rfl, rfl, rfl, rfl, rfl, rfl, rfl⟩

theorem Advance.sameOrigin (h : Advance s d i j) : i.SameOrigin j := by
  cases h with
  | record => exact ⟨rfl, rfl, rfl, rfl, rfl, rfl, rfl⟩
  | takeOver => exact sameOrigin_withOutputs _ _ _

theorem Halt.sameOrigin (h : Halt s i j) : i.SameOrigin j := by
  cases h with
  | wait => exact ⟨rfl, rfl, rfl, rfl, rfl, rfl, rfl⟩
  | complete => exact ⟨rfl, rfl, rfl, rfl, rfl, rfl, rfl⟩
  | fail => exact ⟨rfl, rfl, rfl, rfl, rfl, rfl, rfl⟩
  | failWith => exact sameOrigin_failedWith _ _ _ _

theorem rememberChild_status (i child : Instance) (nodeId : String) :
    (i.rememberChild child nodeId).status = i.status := by
  obtain ⟨children, h⟩ := Instance.rememberChild_eq i child nodeId
  rw [h]

theorem rememberChild_waitingFor (i child : Instance) (nodeId : String) :
    (i.rememberChild child nodeId).waitingFor = i.waitingFor := by
  obtain ⟨children, h⟩ := Instance.rememberChild_eq i child nodeId
  rw [h]

/-- a walk that goes on leaves the state of its instance as it is -/
theorem Advance.status (h : Advance s d i j) : j.status = i.status := by
  cases h with
  | record => rfl
  | @takeOver child link => exact rememberChild_status i child link.parentNodeId

theorem Advance.waitingFor (h : Advance s d i j) : j.waitingFor = i.waitingFor := by
  cases h with
  | record => rfl
  | @takeOver child link => exact rememberChild_waitingFor i child link.parentNodeId

theorem Halt.status_ne_running (h : Halt s i j) : j.status ≠ .running := by
  cases h with
  | wait => exact nofun
  | complete => exact nofun
  | fail => exact nofun
  | failWith => exact nofun

/-! ## moves -/

/-- A walk that is under way: its instance, and the definition it walks through. -/
structure Frame where
  instanceId : String
  definition : Definition

/-- The walks that are under way, the innermost first, and the world. -/
structure Scene where
  frames : List Frame
  world : World

variable (names : Nat → String) (maxLevel : Nat)

/-- A new instance of a request, under an id that was generated for it. -/
structure Created (w : World) (r : StartRequest) (d : Definition) (i : Instance) : Prop where
  definition : ∃ pinned now, requested? w.store r = some (d, pinned) ∧
    i = newInstance r d pinned i.id now
  level : r.nestingLevel ≤ maxLevel
  generated : ∃ n, n < w.ids ∧ i.id = names n
  unstored : w.store.getInstance? i.id = none
  unlinked : w.store.getLink? i.id = none

/-- A link from a node of the innermost walk to a child that was started for it and is no longer
walked. -/
structure Links (fs : List Frame) (d : Definition) (w : World) (p : Instance) (l : ChildLink) :
    Prop where
  parent : l.parentId = p.id
  node : ∃ n, d.findNode? l.parentNodeId = some n ∧ n.kind = .subprocess
  child : ∃ child, w.store.getInstance? l.childId = some child ∧ child.parentId = some p.id ∧
    child.nestingLevel = p.nestingLevel + 1
  level : l.nestingLevel = p.nestingLevel + 1
  unlinked : w.store.getLink? l.childId = none
  unwalked : ∀ f ∈ fs, f.instanceId ≠ l.childId

/-- A change that walks make.  All of them but `quiet` are made by the innermost walk. -/
inductive Move : Scene → Scene → Prop
  /-- nothing that instances are made of is changed -/
  | quiet {fs : List Frame} {w w' : World} (h : Quiet w w') : Move ⟨fs, w⟩ ⟨fs, w'⟩
  /-- a subprocess node starts a child -/
  | create {f : Frame} {fs : List Frame} {w : World} {p i : Instance} {r : StartRequest}
    {d : Definition} (hp : w.store.getInstance? f.instanceId = some p) (hid : p.id = f.instanceId)
    (hr : r.parentId = some p.id) (hl : r.nestingLevel = p.nestingLevel + 1)
    (hc : Created names maxLevel w r d i) :
    Move ⟨f :: fs, w⟩ ⟨⟨i.id, d⟩ :: f :: fs, w.started i d⟩
  /-- and joins it to its instance -/
  | link {f : Frame} {fs : List Frame} {w : World} {p : Instance} {l : ChildLink}
    (hp : w.store.getInstance? f.instanceId = some p) (hid : p.id = f.instanceId)
    (hl : Links (f :: fs) f.definition w p l) : Move ⟨f :: fs, w⟩ ⟨f :: fs, w.link l⟩
  | advance {f : Frame} {fs : List Frame} {w : World} {i j : Instance}
    (hi : w.store.getInstance? f.instanceId = some i) (hid : i.id = f.instanceId)
    (hr : i.status = .running) (h : Advance w.store f.definition i j) (now : Instant) :
    Move ⟨f :: fs, w⟩ ⟨f :: fs, w.put (j.written now)⟩
  | halt {f : Frame} {fs : List Frame} {w : World} {i j : Instance}
    (hi : w.store.getInstance? f.instanceId = some i) (hid : i.id = f.instanceId)
    (hr : i.status = .running) (h : Halt w.store i j) (now : Instant) :
    Move ⟨f :: fs, w⟩ ⟨fs, w.announce (j.written now) now⟩

/-- Any number of moves. -/
abbrev Moves : Scene → Scene → Prop := Relation.ReflTransGen (Move names maxLevel)

/-! ## operations -/

/-- What makes an operation act on an instance. -/
inductive Act where
  | start (r : StartRequest)
  | resume (id nodeId : String) (data : Option Json)
  /-- a child that has ended is reported to its parent -/
  | wake (link : ChildLink) (child : Instance)
  | pause (id : String)
  | cancel (id : String)

/-- A parent that stands still until a finished child is reported, in a definition that has the node
of the child. -/
structure Woken (s : Store) (d : Definition) (i child : Instance) (link : ChildLink) : Prop where
  stored : s.getInstance? i.id = some i
  parked : i.isParkedOn child.id = true
  reports : Reports s i.id child link
  definition : definitionOf? s i = some d
  node : ∃ n, d.findNode? link.parentNodeId = some n

/-- What an operation does to one instance before it walks.  If it goes on, it has a frame. -/
inductive Opening : Act → World → Scene → Prop
  | start {w : World} {r : StartRequest} {d : Definition} {i : Instance}
    (hc : Created names maxLevel w r d i) : Opening (.start r) w ⟨[⟨i.id, d⟩], w.started i d⟩
  | resume {w : World} {i : Instance} {d : Definition} {nodeId : String} (data : Option Json)
    (now : Instant) (hi : w.store.getInstance? i.id = some i) (hp : i.status.isParked = true)
    (hd : definitionOf? w.store i = some d) (hn : ∃ n, d.findNode? nodeId = some n) :
    Opening (.resume i.id nodeId data) w
      ⟨[⟨i.id, d⟩], w.announce ((goingOn (withData i nodeId data) nodeId now).written now) now⟩
  /-- a waiting parent goes on behind the node of a child that has completed -/
  | wake {w : World} {i child : Instance} {link : ChildLink} {d : Definition} (now : Instant)
    (h : Woken w.store d i child link) (hc : child.status = .completed) (hp : i.status ≠ .paused) :
    Opening (.wake link child) w
      ⟨[⟨i.id, d⟩],
        w.announce ((goingOn (withOutputs i child link) link.parentNodeId now).written now) now⟩
  /-- a paused parent keeps the outcome for its next resumption -/
  | note {w : World} {i child : Instance} {link : ChildLink} {d : Definition} (now : Instant)
    (h : Woken w.store d i child link) (hc : child.status = .completed) (hp : i.status = .paused) :
    Opening (.wake link child) w
      ⟨[], w.put ((noted i child link).written now)⟩
  /-- a parent fails with a child that has not completed -/
  | failWith {w : World} {i child : Instance} {link : ChildLink} {d : Definition} (now : Instant)
    (h : Woken w.store d i child link) (hc : child.status ≠ .completed) :
    Opening (.wake link child) w ⟨[], w.announce ((failedWith i child link now).written now) now⟩
  | pause {w : World} {i : Instance} (now : Instant) (hi : w.store.getInstance? i.id = some i)
    (ht : i.status.isTerminal = false) (hp : i.status ≠ .paused) :
    Opening (.pause i.id) w ⟨[], w.announce ((held i now).written now) now⟩
  | cancel {w : World} {i : Instance} (now : Instant) (hi : w.store.getInstance? i.id = some i)
    (ht : i.status.isTerminal = false) :
    Opening (.cancel i.id) w ⟨[], w.announce ((i.setStatus .cancelled now).written now) now⟩

/-- An opening, and the walks behind it to their ends. -/
def Deed (act : Act) (w w' : World) : Prop :=
  ∃ v scene, Quiet w v ∧ Opening names maxLevel act v scene ∧ Moves names maxLevel scene ⟨[], w'⟩

end Engine
end Workflows
