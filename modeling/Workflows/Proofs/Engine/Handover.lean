import Workflows.Proofs.Engine.Family
import Workflows.Proofs.Engine.Parking

/-!
# Handovers

A node has launched a child, and its parent is about to wait for it.  Meanwhile another client may
end the child.  The calls of both go on step by step, in any order.  A step reads or writes the
store once; what is read beside a write of the same step nobody else writes.

* `Handover`         what is fixed: the node, its outcome, the link, and what the client does
* `ParentAt`         where the call is that walks the parent, behind the launch
* `ClientAt`         where the call is that acts on the child
* `Handover.State`   the world and both calls
* `Handover.Step`    a step of either call
* `Past`             a child that has ended, and a parent that does not wait for it

A call that has returned has let go of its lock.  What it goes on to do is about the parents of the
parent.
-/

namespace Workflows.Engine

variable {names : Nat → String} {maxLevel : Nat} {w w' : World} {scene scene' : Scene} {act : Act}
  {i j k child : Instance} {link : ChildLink} {c id : String}

/-! ## what walks leave alone -/

/-- None of some walks is that of an instance. -/
def Outside (id : String) (fs : List Frame) : Prop := ∀ f ∈ fs, f.instanceId ≠ id

/-- A walk leaves an instance alone that is not walked. -/
theorem Move.has_outside (h : Move names maxLevel scene scene') (ho : Outside id scene.frames)
    (hi : Has id i scene.world) : Has id i scene'.world ∧ Outside id scene'.frames := by
  cases h with
  | quiet hq => exact ⟨hi.quiet hq, ho⟩
  | create _ _ _ _ hc =>
    refine ⟨hi.started hc, fun f hf => ?_⟩
    rcases List.mem_cons.mp hf with rfl | hf
    · rintro rfl
      exact nomatch hc.unstored.symm.trans hi
    · exact ho f hf
  | link => exact ⟨hi, ho⟩
  | @advance f _ _ k j _ hid _ ha now =>
    refine ⟨hi.put_of_ne fun he => ho f List.mem_cons_self ?_, ho⟩
    exact hid.symm.trans (ha.sameOrigin.id.symm.trans he.symm)
  | @halt f _ _ k j _ hid _ ha now =>
    refine ⟨hi.put_of_ne fun he => ho f List.mem_cons_self ?_, fun g hg => ho g (.tail _ hg)⟩
    exact hid.symm.trans (ha.sameOrigin.id.symm.trans he.symm)

/-- Only its parent joins a child to a node. -/
theorem Move.getLink?_outside (h : Move names maxLevel scene scene') (ho : Outside id scene.frames)
    (hc : Has c child scene.world) (hp : child.parentId = some id) :
    scene'.world.store.getLink? c = scene.world.store.getLink? c := by
  cases h with
  | quiet hq => exact hq.getLink? c
  | create => rfl
  | @link f _ _ p l _ hid hl =>
    -- a link of this child would be inserted by the walk of its parent
    rw [World.getLink?_link, if_neg]
    rintro rfl
    obtain ⟨k, hk, hkp, _⟩ := hl.child
    cases Option.some.inj (hk.symm.trans hc)
    exact ho f List.mem_cons_self (hid.symm.trans (Option.some.inj (hkp.symm.trans hp)))
  | advance => rfl
  | halt => rfl

theorem Opening.getLink? (h : Opening names maxLevel act w scene) (id : String) :
    scene.world.store.getLink? id = w.store.getLink? id := by
  rcases h.creates_or_rewrites with ⟨_, _, _, _, _, rfl⟩ | ⟨_, _, _, _, _, hs, _⟩
  · rfl
  · rw [hs]
    rfl

/-- An act that goes on walks the instance that it is about. -/
theorem Opening.outside (h : Opening names maxLevel act w scene) (hs : act.subject? = some c)
    (hne : c ≠ id) : Outside id scene.frames := by
  have hsingle : ∀ {d : Definition}, Outside id [⟨c, d⟩] := by
    intro d f hf
    rw [List.mem_singleton.mp hf]
    exact hne
  cases h with
  | start => cases hs
  | resume =>
    cases hs
    exact hsingle
  | wake now hk _ _ =>
    cases hs
    rw [hk.reports.parent] at hsingle
    exact hsingle
  | note => exact nofun
  | failWith => exact nofun
  | pause => exact nofun
  | cancel => exact nofun

/-! ## behind the end of a child -/

/-- A child that has ended, and a parent that does not wait for it. -/
structure Past (p c : String) (s : Store) : Prop where
  child : ∃ child, s.getInstance? c = some child ∧ child.status.isTerminal = true
  parent : ∃ i, s.getInstance? p = some i ∧ ¬ ParksOn i c

theorem Past.quiet (h : Past id c w.store) (hq : Quiet w w') : Past id c w'.store := by
  obtain ⟨⟨child, hchild, ht⟩, i, hi, hn⟩ := h
  exact ⟨⟨child, (hq.getInstance? c).trans hchild, ht⟩, i, (hq.getInstance? id).trans hi, hn⟩

theorem Past.put (h : Past id c w.store) (hk : w.store.getInstance? k.id = some k)
    (ht : k.status.isTerminal = false) (hid : j.id = k.id) (hj : ¬ ParksOn j c) :
    Past id c (w.put j).store := by
  obtain ⟨⟨child, hchild, hended⟩, i, hi, hn⟩ := h
  refine ⟨⟨child, Has.put hchild hk hid (ne_of_terminal hended ht), hended⟩, ?_⟩
  by_cases he : id = j.id
  · exact ⟨j, World.getInstance?_put_self he.symm, hj⟩
  · exact ⟨i, Has.put_of_ne hi he, hn⟩

/-- A walk does not make its instance wait for a child that has ended. -/
theorem Halt.not_parksOn {st : Store} (h : Halt st i j)
    (hc : st.getInstance? c = some child) (ht : child.status.isTerminal = true) :
    ¬ ParksOn j c := by
  intro hp
  obtain ⟨k, _, hk, _, _, halive⟩ := h.backed (E := ∅) hp
  cases Option.some.inj (hk.symm.trans hc)
  exact absurd (halive ht) (Set.notMem_empty c)

theorem Move.past (h : Move names maxLevel scene scene') (hp : Past id c scene.world.store) :
    Past id c scene'.world.store := by
  obtain ⟨child, hchild, ht⟩ := hp.child
  cases h with
  | quiet hq => exact hp.quiet hq
  | create _ _ _ _ hc =>
    obtain ⟨i, hi, hn⟩ := hp.parent
    exact ⟨⟨child, Has.started hchild hc, ht⟩, i, Has.started hi hc, hn⟩
  | link => exact ⟨hp.child, hp.parent⟩
  | @advance f _ _ k j hk hid hr ha now =>
    refine hp.put (stored_of_frame hk hid) (hr ▸ rfl) ha.sameOrigin.id (not_parksOn_of_running ?_)
    exact ha.status.trans hr
  | @halt f _ _ k j hk hid hr ha now =>
    -- what a walk begins to wait for has not ended
    exact hp.put (stored_of_frame hk hid) (hr ▸ rfl) ha.sameOrigin.id (ha.not_parksOn hchild ht)

theorem Moves.past (h : Moves names maxLevel scene scene') (hp : Past id c scene.world.store) :
    Past id c scene'.world.store := by
  induction h with
  | refl => exact hp
  | tail _ hm ih => exact hm.past ih

theorem Woken.past {d : Definition} (h : Woken w.store d i child link) (hj : j.id = i.id)
    (hn : ¬ ParksOn j child.id) : Past link.parentId child.id (w.put j).store := by
  have hne : child.status ≠ i.status := ne_of_terminal h.reports.terminal h.not_terminal
  refine ⟨⟨child, Has.put h.reports.stored h.stored hj hne, h.reports.terminal⟩, j, ?_, hn⟩
  exact World.getInstance?_put_self (hj.trans h.reports.parent.symm)

/-- **A parent that has been woken does not wait for the child any more.** -/
theorem Deed.past (h : Deed names maxLevel (.wake link child) w w') :
    Past link.parentId child.id w'.store := by
  obtain ⟨v, scene, _, hopening, hmoves⟩ := h
  refine Moves.past hmoves ?_
  cases hopening with
  | wake now hk _ _ =>
    exact hk.past (sameOrigin_withOutputs _ _ _).id (not_parksOn_of_running rfl)
  | note now hk _ _ => exact hk.past (sameOrigin_noted _ _ _).id (not_parksOn_of_none rfl)
  | failWith now hk _ =>
    exact hk.past (sameOrigin_failedWith _ _ _ now).id (not_parksOn_of_terminal rfl)

/-! ## both calls -/

/-- A child that a node has launched, and what another client does to it. -/
structure Handover where
  definition : Definition
  node : Node
  outcome : Outcome
  /-- the variables behind the node -/
  vars : Vars
  startedAt : Instant
  completedAt : Instant
  link : ChildLink
  /-- the walks under way around that of the parent -/
  rest : List Frame
  act : Act

/-- What a parent does next with a child that it has launched. -/
inductive Stage where
  | insertLink
  | record
  | readChild
  | readLink (child : Instance)
  | takeOver (child : Instance) (link : ChildLink)
  | wait

/-- Where the call is that walks the parent. -/
inductive ParentAt where
  /-- behind the launch, with the record that it holds -/
  | behind (stage : Stage) (i : Instance)
  /-- behind the node -/
  | walking (fs : List Frame)
  | returned

/-- What a client does next when a child has ended. -/
inductive Telling where
  | readLink
  | readParent (link : ChildLink)
  /-- the lock of the parent is waited for -/
  | wake (link : ChildLink)

/-- Where the call is that acts on the child. -/
inductive ClientAt where
  | calling
  | walking (fs : List Frame)
  | telling (stage : Telling) (child : Instance)
  | returned

/-- the parent is going to wait, whatever becomes of its child meanwhile -/
def ParentAt.isToWait : ParentAt → Bool
  | .behind .wait _ => true
  | _ => false

namespace Handover

/-- The world and both calls. -/
structure State where
  world : World
  parent : ParentAt
  client : ClientAt
  /-- whether the client has read the parent when it was going to wait -/
  overlooked : Bool

variable (env : Env) (h : Handover)

/-- a finished child is taken over; the answer is the parent if it goes on -/
def taken (i : Instance) (child : Instance) (link : ChildLink) :
    Run EngineError (Option Instance) := do
  match ← applyChild env i h.node child link with
  | .goesOn i => return some (← persist env i)
  | .stopped _ => return none

/-- one step of the parent behind the launch -/
def behind : Stage → Instance → World → World × ParentAt
  | .insertLink, i, w => (w.link h.link, .behind .record i)
  | .record, i, w =>
    match runFrom (persist env
      (recordStep i h.node h.outcome h.vars h.startedAt h.completedAt)) w with
    | (.ok i, w) => (w, .behind .readChild i)
    | (.error _, w) => (w, .returned)
  | .readChild, i, w =>
    match h.outcome.wait.bind fun wait => w.store.getInstance? wait.id with
    | some child => (w, .behind (if child.status.isTerminal then .readLink child else .wait) i)
    | none => (w, .behind .wait i)
  | .readLink child, i, w =>
    match w.store.getLink? child.id with
    | some link => (w, .behind (.takeOver child link) i)
    | none => (w, .behind .wait i)
  | .takeOver child link, i, w =>
    match runFrom (h.taken env i child link) w with
    | (.ok (some i), w) => (w, .walking (⟨i.id, h.definition⟩ :: h.rest))
    | (_, w) => (w, .returned)
  | .wait, i, w => ((runFrom (park env i h.outcome) w).2, .returned)

/-- where the client is when it has read the link of the child -/
def toldOf (child : Instance) : Option ChildLink → ClientAt
  | some link => .telling (.readParent link) child
  | none => .returned

/-- where the client is when it has read the parent -/
def toldTo (child : Instance) (link : ChildLink) (parent : Option Instance) : ClientAt :=
  if parent.any (·.isParkedOn child.id) then .telling (.wake link) child else .returned

/-- where the client is when it has let go of the child -/
def letGo (child : Instance) : ClientAt :=
  if child.status.isTerminal && child.parentId.isSome then .telling .readLink child else .returned

/-- A step of either call. -/
inductive Step : State → State → Prop
  | behind {w : World} {stage : Stage} {i : Instance} {c : ClientAt} {o : Bool} :
    Step ⟨w, .behind stage i, c, o⟩ ⟨(h.behind env stage i w).1, (h.behind env stage i w).2, c, o⟩
  | walk {w w' : World} {fs fs' : List Frame} {c : ClientAt} {o : Bool} (hfs : fs ≠ h.rest)
    (hm : Move env.idName env.settings.maxNestingLevel ⟨fs, w⟩ ⟨fs', w'⟩) :
    Step ⟨w, .walking fs, c, o⟩ ⟨w', .walking fs', c, o⟩
  | leave {w : World} {c : ClientAt} {o : Bool} :
    Step ⟨w, .walking h.rest, c, o⟩ ⟨w, .returned, c, o⟩
  /-- the state of the child does not allow the call -/
  | refuse {w w' : World} {p : ParentAt} {o : Bool} (hq : Quiet w w') :
    Step ⟨w, p, .calling, o⟩ ⟨w', p, .returned, o⟩
  | act {w v : World} {p : ParentAt} {o : Bool} {s : Scene} (hq : Quiet w v)
    (ha : Opening env.idName env.settings.maxNestingLevel h.act v s) :
    Step ⟨w, p, .calling, o⟩ ⟨s.world, p, .walking s.frames, o⟩
  | walkChild {w w' : World} {fs fs' : List Frame} {p : ParentAt} {o : Bool}
    (hm : Move env.idName env.settings.maxNestingLevel ⟨fs, w⟩ ⟨fs', w'⟩) :
    Step ⟨w, p, .walking fs, o⟩ ⟨w', p, .walking fs', o⟩
  | leaveChild {w : World} {p : ParentAt} {o : Bool} {child : Instance}
    (hc : w.store.getInstance? h.link.childId = some child) :
    Step ⟨w, p, .walking [], o⟩ ⟨w, p, letGo child, o⟩
  | readLink {w : World} {p : ParentAt} {o : Bool} {child : Instance} :
    Step ⟨w, p, .telling .readLink child, o⟩
      ⟨w, p, toldOf child (w.store.getLink? child.id), o⟩
  | readParent {w : World} {p : ParentAt} {o : Bool} {child : Instance} {link : ChildLink} :
    Step ⟨w, p, .telling (.readParent link) child, o⟩
      ⟨w, p, toldTo child link (w.store.getInstance? link.parentId), o || p.isToWait⟩
  /-- the lock of the parent is free -/
  | wake {w : World} {o : Bool} {child : Instance} {link : ChildLink} :
    Step ⟨w, .returned, .telling (.wake link) child, o⟩
      ⟨(runFrom (lockedWake env link child) w).2, .returned, .returned, o⟩

/-- Any number of steps. -/
abbrev Steps : State → State → Prop := Relation.ReflTransGen (Step env h)

/-- A parent that has just launched a child, which stands still.  The node that has launched it is
one of the stored definition. -/
structure Begins (w : World) (p : Instance) : Prop where
  orderly : Orderly env.idName w
  parent : Has p.id p w
  running : p.status = .running
  definition : definitionOf? w.store p = some h.definition
  node : h.definition.findNode? h.link.parentNodeId = some h.node
  child : ∃ child, Has h.link.childId child w ∧ child.status.isParked = true ∧
    child.parentId = some p.id
  wait : h.outcome.wait = some ⟨.subprocess, h.link.childId, none⟩
  link : h.link.parentId = p.id
  unlinked : w.store.getLink? h.link.childId = none
  act : h.act = .cancel h.link.childId ∨
    ∃ nodeId data, h.act = .resume h.link.childId nodeId data

end Handover
end Workflows.Engine
