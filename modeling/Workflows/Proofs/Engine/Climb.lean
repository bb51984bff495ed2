import Workflows.Proofs.Engine.Kept
import Workflows.Proofs.Engine.Walk

/-!
# From children to parents

What the end of an instance does to the parent that waits for it, and so on upward.

* `continueAfter_acts`   an instance that goes on behind a node
* `WaitedFor`            a parent that stands still until a finished child is reported
* `Round`                one parent that is told, or none
* `Climb`                what the end of a child does, from parent to parent

Main statement: `settle` climbs (`settle_climbs`).
-/

namespace Workflows.Engine

/-! ## reading -/

section
variable {i : Instance} {d : Definition} {n : Node} {w : World} {id : String}

theorem runFrom_getInstance (h : w.store.getInstance? id = some i) :
    runFrom (getInstance id) w = (.ok i, w) := by
  unfold getInstance
  rw [runFrom_fromStore_bind, h]
  rfl

theorem runFrom_getInstance_none (h : w.store.getInstance? id = none) :
    runFrom (getInstance id) w = (.error (.workflow (.instanceNotFound id)), w) := by
  unfold getInstance
  rw [runFrom_fromStore_bind, h]
  rfl

theorem runFrom_definitionFor (h : definitionOf? w.store i = some d) :
    runFrom (definitionFor i) w = (.ok d, w) := by
  unfold definitionFor
  rw [runFrom_fromStore_bind, h]
  rfl

theorem runFrom_definitionFor_none (h : definitionOf? w.store i = none) :
    runFrom (definitionFor i) w = (.error (.workflow (.notFound i.workflowId)), w) := by
  unfold definitionFor
  rw [runFrom_fromStore_bind, h]
  rfl

theorem runFrom_getNode (h : d.findNode? id = some n) : runFrom (getNode d id) w = (.ok n, w) := by
  unfold getNode
  rw [h]
  rfl

theorem runFrom_getNode_none (h : d.findNode? id = none) :
    runFrom (getNode d id) w = (.error (.workflow (.nodeNotFound id)), w) := by
  unfold getNode
  rw [h]
  rfl

end

variable {env : Env} {i j : Instance} {d : Definition} {n : Node} {w : World} {nodeId : String}

/-! ## going on behind a node -/

/-- An act on an instance, and its record after the walks. -/
def Acted (env : Env) (act : Act) (id : String) (w : World) (j : Instance) (w' : World) : Prop :=
  Deed env.idName env.settings.maxNestingLevel act w w' ∧ w'.store.getInstance? id = some j

/-- the world in which an instance that goes on behind a node is written -/
def goneOn (env : Env) (i : Instance) (nodeId : String) (w : World) : World :=
  w.announce ((goingOn i nodeId (env.time w)).written (env.time w)) (env.time w)

theorem runFrom_continueAfter {stored : Instance} (hi : w.store.getInstance? i.id = some stored)
    (hv : stored.version = i.version) (n : Node) (route : Option String) :
    runFrom (continueAfter env d i n nodeId route) w =
      runFrom (walkFrom env (start env) d (d.nextNodes n route)
        ((goingOn i nodeId (env.time w)).written (env.time w))) (goneOn env i nodeId w) := by
  have hpersist : runFrom (persistStatus env (goingOn i nodeId (env.time w))) w = _ :=
    runFrom_persistStatus env hi hv
  unfold continueAfter
  rw [runFrom_lift_bind]
  exact runFrom_bind_ok hpersist _

theorem goneOn_current {stored : Instance} (hf : Fresh env.idName w)
    (hi : w.store.getInstance? i.id = some stored) :
    Current env.idName ⟨i.id, d⟩ [] ((goingOn i nodeId (env.time w)).written (env.time w))
      (goneOn env i nodeId w) := by
  have hstored : (goneOn env i nodeId w).store.getInstance? i.id =
      some ((goingOn i nodeId (env.time w)).written (env.time w)) :=
    World.getInstance?_put_self rfl
  have haround : Around env.idName (some i.id) w (goneOn env i nodeId w) :=
    Around.announce w ((goingOn i nodeId (env.time w)).written (env.time w)) (env.time w)
  refine ⟨⟨haround.fresh hf ?_, ?_⟩, rfl, hstored, rfl⟩
  · intro id hid
    cases hid
    exact ⟨stored, hi⟩
  · intro f hf
    rw [List.mem_singleton.mp hf]
    exact ⟨_, hstored⟩

/-- An instance that goes on behind a node is written as running, and walks from there. -/
theorem continueAfter_halted {stored : Instance} (hf : Fresh env.idName w)
    (hi : w.store.getInstance? i.id = some stored)
    (hv : stored.version = i.version) (n : Node) (route : Option String) :
    ∃ j w', runFrom (continueAfter env d i n nodeId route) w = (.ok j, w') ∧
      Halted env.idName env.settings.maxNestingLevel ⟨i.id, d⟩ [] (goneOn env i nodeId w) w'
        ((goingOn i nodeId (env.time w)).written (env.time w)) j := by
  rw [runFrom_continueAfter hi hv]
  exact walk_halted start_starts _ _ (goneOn_current hf hi)

theorem continueAfter_acts {stored : Instance} {act : Act} {id : String} (hf : Fresh env.idName w)
    (hid : i.id = id) (hi : w.store.getInstance? id = some stored) (hv : stored.version = i.version)
    (ho : Opening env.idName env.settings.maxNestingLevel act w ⟨[⟨id, d⟩],
      w.announce ((goingOn i nodeId (env.time w)).written (env.time w)) (env.time w)⟩)
    (n : Node) (route : Option String) :
    ∃ j w', runFrom (continueAfter env d i n nodeId route) w = (.ok j, w') ∧
      Acted env act id w j w' := by
  subst hid
  obtain ⟨j, w', hrun, hj⟩ := continueAfter_halted hf hi hv n route
  exact ⟨j, w', hrun, ⟨w, _, Quiet.refl w, ho, hj.stretch.moves⟩, hj.stretch.stored⟩

/-! ## parents -/

structure WaitedFor (s : Store) (child parent : Instance) (link : ChildLink) : Prop where
  stored : s.getInstance? child.id = some child
  terminal : child.status.isTerminal = true
  hasParent : child.parentId.isSome = true
  linked : s.getLink? child.id = some link
  parked : parent.isParkedOn child.id = true
  parent : s.getInstance? link.parentId = some parent

theorem WaitedFor.woken {s : Store} {child parent : Instance} {link : ChildLink}
    (h : WaitedFor s child parent link) (hk : s.Keyed) (hd : definitionOf? s parent = some d)
    (hn : d.findNode? link.parentNodeId = some n) : Woken s d parent child link := by
  have hid := hk _ _ h.parent
  refine ⟨?_, h.parked, ⟨h.stored, h.terminal, h.linked, hid.symm⟩, hd, n, hn⟩
  rw [hid]
  exact h.parent

theorem runFrom_wakeParent {child parent : Instance} {link : ChildLink}
    (hp : w.store.getInstance? link.parentId = some parent)
    (hd : definitionOf? w.store parent = some d) (hn : d.findNode? link.parentNodeId = some n) :
    runFrom (wakeParent env link child) w =
      runFrom (applyChild env parent n child link >>= fun progress => match progress with
        | .stopped parent => pure parent
        | .goesOn parent =>
          if parent.status = .paused then persist env { parent with waitingFor := none }
          else continueAfter env d parent n link.parentNodeId none) w := by
  unfold wakeParent
  rw [runFrom_bind_ok (runFrom_getInstance hp), runFrom_bind_ok (runFrom_definitionFor hd)]
  exact runFrom_bind_ok (runFrom_getNode hn) _

theorem runFrom_wakeParent_undefined {child parent : Instance} {link : ChildLink}
    (hp : w.store.getInstance? link.parentId = some parent)
    (hd : definitionOf? w.store parent = none) :
    runFrom (wakeParent env link child) w =
      (.error (.workflow (.notFound parent.workflowId)), w) := by
  unfold wakeParent
  rw [runFrom_bind_ok (runFrom_getInstance hp)]
  exact runFrom_bind_error (runFrom_definitionFor_none hd) _

theorem runFrom_wakeParent_missing {child parent : Instance} {link : ChildLink}
    (hp : w.store.getInstance? link.parentId = some parent)
    (hd : definitionOf? w.store parent = some d) (hn : d.findNode? link.parentNodeId = none) :
    runFrom (wakeParent env link child) w =
      (.error (.workflow (.nodeNotFound link.parentNodeId)), w) := by
  unfold wakeParent
  rw [runFrom_bind_ok (runFrom_getInstance hp), runFrom_bind_ok (runFrom_definitionFor hd)]
  exact runFrom_bind_error (runFrom_getNode_none hn) _

theorem noteOutcome_acts {child parent : Instance} {link : ChildLink}
    (hid : parent.id = link.parentId) (h : Woken w.store d parent child link)
    (hc : child.status = .completed) (hp : parent.status = .paused) :
    ∃ j w', runFrom (persist env (noted parent child link)) w = (.ok j, w') ∧
      Acted env (.wake link child) link.parentId w j w' := by
  have hsame := (sameOrigin_noted parent child link).id
  have hstored : w.store.getInstance? (noted parent child link).id = some parent := by
    rw [hsame]
    exact h.stored
  have hrun := runFrom_persist env hstored
    (rememberChild_version parent child link.parentNodeId).symm
  refine ⟨_, _, hrun, ⟨w, _, Quiet.refl w, .note (env.time w) h hc hp, .refl⟩, ?_⟩
  exact World.getInstance?_put_self (hsame.trans hid)

/-- a parent goes on behind a child that has completed, or keeps the outcome -/
theorem goOnOrNote_acts {child parent : Instance} {link : ChildLink} (hf : Fresh env.idName w)
    (hid : parent.id = link.parentId) (h : Woken w.store d parent child link)
    (hc : child.status = .completed) (n : Node) : ∃ j w', runFrom
        (if (withOutputs parent child link).status = .paused then
          persist env (noted parent child link)
        else continueAfter env d (withOutputs parent child link) n link.parentNodeId none) w =
          (.ok j, w') ∧
      Acted env (.wake link child) link.parentId w j w' := by
  have hstatus : (withOutputs parent child link).status = parent.status :=
    rememberChild_status parent child link.parentNodeId
  by_cases hp : parent.status = .paused
  · rw [if_pos (hstatus.trans hp)]
    exact noteOutcome_acts hid h hc hp
  · rw [if_neg fun he => hp (hstatus.symm.trans he)]
    have hstored : w.store.getInstance? parent.id = some parent := h.stored
    have hopening : Opening env.idName env.settings.maxNestingLevel (.wake link child) w _ :=
      .wake (env.time w) h hc hp
    rw [hid] at hstored hopening
    exact continueAfter_acts hf ((sameOrigin_withOutputs parent child link).id.trans hid) hstored
      (rememberChild_version parent child link.parentNodeId).symm hopening n none

/-- A parent is woken, unless its definition has lost the node of the child. -/
theorem wakeParent_acts (ho : Orderly env.idName w) {child parent : Instance} {link : ChildLink}
    (h : WaitedFor w.store child parent link) :
    (∃ e, runFrom (wakeParent env link child) w = (.error e, w) ∧ e.isStorage = false ∧
      ∀ d, definitionOf? w.store parent = some d → d.findNode? link.parentNodeId = none) ∨
    ∃ j w', runFrom (wakeParent env link child) w = (.ok j, w') ∧
      Acted env (.wake link child) link.parentId w j w' := by
  have hid := ho.keyed _ _ h.parent
  cases hd : definitionOf? w.store parent with
  | none =>
    rw [runFrom_wakeParent_undefined h.parent hd]
    exact .inl ⟨_, rfl, rfl, fun d hd' => nomatch hd'⟩
  | some d =>
    cases hn : d.findNode? link.parentNodeId with
    | none =>
      rw [runFrom_wakeParent_missing h.parent hd hn]
      refine .inl ⟨_, rfl, rfl, fun d' hd' => ?_⟩
      cases hd'
      exact hn
    | some n =>
      have hwoken := h.woken ho.keyed hd hn
      have hnode := Definition.findNode?_id hn
      rw [runFrom_wakeParent h.parent hd hn]
      right
      by_cases hc : child.status = .completed
      · rw [runFrom_bind_ok (runFrom_applyChild_completed env parent hnode.symm hc w)]
        exact goOnOrNote_acts ho.fresh hid hwoken hc n
      · rw [runFrom_bind_ok (runFrom_applyChild_failed env hwoken.stored hc)]
        refine ⟨_, _, rfl, ⟨w, _, Quiet.refl w, .failWith (env.time w) hwoken hc, .refl⟩, ?_⟩
        rw [← hid]
        exact World.getInstance?_put_self (sameOrigin_failedWith parent child link (env.time w)).id

/-! ## from parent to parent -/

/-- A change of locks and the clock. -/
structure Idle (w w' : World) : Prop where
  store : w'.store = w.store
  ids : w'.ids = w.ids
  refusals : w'.refusals = w.refusals
  events : w'.events = w.events

/-- What the end of a child does, from parent to parent: nothing, where no parent waits for it. -/
inductive Climb (names : Nat → String) (maxLevel : Nat) :
    Nat → Instance → World → Except EngineError Unit → World → Prop
  | exhausted {child : Instance} {w : World} : Climb names maxLevel 0 child w (.ok ()) w
  | ended {fuel : Nat} {child : Instance} {w : World}
    (h : ∀ parent link, ¬ WaitedFor w.store child parent link) :
    Climb names maxLevel (fuel + 1) child w (.ok ()) w
  /-- the definition of the parent has lost the node of the child -/
  | refused {fuel : Nat} {child parent : Instance} {link : ChildLink} {w w' : World}
    {e : EngineError} (h : WaitedFor w.store child parent link)
    (hd : ∀ d, definitionOf? w.store parent = some d → d.findNode? link.parentNodeId = none)
    (hw : Idle w w') (he : e.isStorage = false) :
    Climb names maxLevel (fuel + 1) child w (.error e) w'
  | up {fuel : Nat} {child parent j : Instance} {link : ChildLink} {w u w' : World}
    {result : Except EngineError Unit}
    (h : WaitedFor w.store child parent link) (hd : Deed names maxLevel (.wake link child) w u)
    (hj : u.store.getInstance? link.parentId = some j)
    (hc : Climb names maxLevel fuel j u result w') :
    Climb names maxLevel (fuel + 1) child w result w'

theorem Deed.around_quiet {names : Nat → String} {maxLevel : Nat} {act : Act} {u v w w' : World}
    (hu : Quiet u v)
    (h : Deed names maxLevel act v w) (hw : Quiet w w') : Deed names maxLevel act u w' := by
  obtain ⟨v', scene, hquiet, hopening, hmoves⟩ := h
  exact ⟨v', scene, hu.trans hquiet, hopening, hmoves.tail (.quiet hw)⟩

theorem runFrom_isParkedOn (parentId childId : String) (w : World) :
    runFrom (isParkedOn parentId childId) w = (.ok (match w.store.getInstance? parentId with
      | some parent => parent.isParkedOn childId
      | none => false), w) := rfl

theorem WaitedFor.congr {s t : Store} {child parent : Instance} {link : ChildLink}
    (h : WaitedFor s child parent link) (hs : t = s) : WaitedFor t child parent link := by
  rw [hs]
  exact h

theorem WaitedFor.isParkedOn {child parent : Instance} {link : ChildLink}
    (h : WaitedFor w.store child parent link) :
    runFrom (isParkedOn link.parentId child.id) w = (.ok true, w) := by
  rw [runFrom_isParkedOn, h.parent]
  simp only [h.parked]

theorem isParkedOn_of_not_waitedFor {child : Instance} {link : ChildLink}
    (hc : w.store.getInstance? child.id = some child) (ht : child.status.isTerminal = true)
    (hp : child.parentId.isSome = true) (hl : w.store.getLink? child.id = some link)
    (h : ¬ ∃ parent, WaitedFor w.store child parent link) :
    runFrom (isParkedOn link.parentId child.id) w = (.ok false, w) := by
  rw [runFrom_isParkedOn]
  cases hparent : w.store.getInstance? link.parentId with
  | none => rfl
  | some parent =>
    cases hparked : parent.isParkedOn child.id with
    | true => exact absurd ⟨parent, hc, ht, hp, hl, hparked, hparent⟩ h
    | false => simp only [hparked]

/-- the parent of a child is woken under its lock, if it still waits then -/
def lockedWake (env : Env) (link : ChildLink) (child : Instance) :
    Run EngineError (Option Instance) :=
  Run.locked link.parentId do
    if ← isParkedOn link.parentId child.id then return some (← wakeParent env link child)
    else return none

theorem runFrom_lockedWake {child parent : Instance} {link : ChildLink}
    (h : WaitedFor w.store child parent link) :
    runFrom (lockedWake env link child) w =
      ((runFrom (wakeParent env link child) (w.locked link.parentId)).1.map some,
        (runFrom (wakeParent env link child) (w.locked link.parentId)).2.unlocked
          link.parentId) := by
  have hv : WaitedFor (w.locked link.parentId).store child parent link := h.congr rfl
  unfold lockedWake
  rw [runFrom_locked, runFrom_bind_ok hv.isParkedOn, if_pos rfl, runFrom_bind]
  rcases runFrom (wakeParent env link child) (w.locked link.parentId) with ⟨r, w'⟩
  cases r with
  | ok j => rfl
  | error e => rfl

theorem lockedWake_acts (ho : Orderly env.idName w) {child parent : Instance} {link : ChildLink}
    (h : WaitedFor w.store child parent link) :
    (∃ e w', runFrom (lockedWake env link child) w = (.error e, w') ∧ Idle w w' ∧
        e.isStorage = false ∧
        ∀ d, definitionOf? w.store parent = some d → d.findNode? link.parentNodeId = none) ∨
      ∃ j w', runFrom (lockedWake env link child) w = (.ok (some j), w') ∧
        Acted env (.wake link child) link.parentId w j w' := by
  have hv : WaitedFor (w.locked link.parentId).store child parent link := h.congr rfl
  rw [runFrom_lockedWake h]
  rcases wakeParent_acts (ho.locked link.parentId) hv with
    ⟨e, hrun, he, hd⟩ | ⟨j, w', hrun, hdeed, hj⟩
  · rw [hrun]
    exact .inl ⟨e, _, rfl, ⟨rfl, rfl, rfl, rfl⟩, he, hd⟩
  · rw [hrun]
    have hacted := hdeed.around_quiet (Quiet.locked w _) (Quiet.unlocked w' link.parentId)
    exact .inr ⟨j, _, rfl, hacted, hj⟩

/-- What one round of telling does, whatever the fuel for the rounds behind it. -/
inductive Round (env : Env) (child : Instance) (w : World) : Prop
  | ended (h : ∀ parent link, ¬ WaitedFor w.store child parent link)
    (hrun : ∀ fuel, runFrom (settle env (fuel + 1) child) w = (.ok (), w))
  | told {parent : Instance} {link : ChildLink} (h : WaitedFor w.store child parent link)
    (hrun : ∀ fuel, runFrom (settle env (fuel + 1) child) w =
      runFrom (lockedWake env link child >>= fun parent => match parent with
        | some parent => settle env fuel parent
        | none => pure ()) w)

theorem settle_round {child : Instance} (hc : w.store.getInstance? child.id = some child) :
    Round env child w := by
  by_cases hchild : (child.status.isTerminal && child.parentId.isSome) = true
  · obtain ⟨ht, hp⟩ := Bool.and_eq_true_iff.mp hchild
    cases hl : w.store.getLink? child.id with
    | none =>
      refine .ended (fun parent link h => ?_) fun fuel => ?_
      · rw [h.linked] at hl
        cases hl
      · unfold settle
        rw [if_pos hchild, runFrom_fromStore_bind, hl]
        rfl
    | some link =>
      by_cases hw : ∃ parent, WaitedFor w.store child parent link
      · obtain ⟨parent, hw⟩ := hw
        refine .told hw fun fuel => ?_
        conv => lhs; unfold settle
        rw [if_pos hchild, runFrom_fromStore_bind, hl]
        simp only
        rw [runFrom_bind_ok hw.isParkedOn, if_pos rfl]
        rfl
      · refine .ended (fun parent link' h => hw ⟨parent, ?_⟩) fun fuel => ?_
        · have hsame := h.linked
          rw [hl] at hsame
          cases hsame
          exact h
        · unfold settle
          rw [if_pos hchild, runFrom_fromStore_bind, hl]
          simp only
          rw [runFrom_bind_ok (isParkedOn_of_not_waitedFor hc ht hp hl hw),
            if_neg Bool.false_ne_true]
          rfl
  · refine .ended (fun parent link h => hchild ?_) fun fuel => ?_
    · rw [h.terminal, h.hasParent]
      rfl
    · unfold settle
      rw [if_neg hchild]
      rfl

/-- an instance that has not ended is not reported -/
theorem runFrom_settle_of_alive {child : Instance} (h : child.status.isTerminal = false)
    (fuel : Nat) (w : World) : runFrom (settle env fuel child) w = (.ok (), w) := by
  cases fuel with
  | zero => rfl
  | succ fuel =>
    unfold settle
    rw [h, Bool.false_and, if_neg Bool.false_ne_true]
    rfl

/-- **The end of a child is told from parent to parent.** -/
theorem settle_climbs (fuel : Nat) {child : Instance} (ho : Orderly env.idName w)
    (hc : w.store.getInstance? child.id = some child) :
    Climb env.idName env.settings.maxNestingLevel fuel child w (runFrom (settle env fuel child) w).1
      (runFrom (settle env fuel child) w).2 := by
  induction fuel generalizing child w with
  | zero => exact .exhausted
  | succ fuel ih =>
    cases settle_round hc with
    | ended h hrun =>
      rw [hrun]
      exact .ended h
    | told h hrun =>
      rw [hrun]
      rcases lockedWake_acts ho h with ⟨e, w', hwake, hidle, he, hd⟩ | ⟨j, u, hwake, hdeed, hj⟩
      · rw [runFrom_bind_error hwake]
        exact .refused h hd hidle he
      · rw [runFrom_bind_ok hwake]
        have hu := hdeed.orderly ho
        have hid := hu.keyed _ _ hj
        refine .up h hdeed hj (ih hu ?_)
        rw [hid]
        exact hj

theorem runFrom_finish (i : Instance) (w : World) :
    runFrom (finish env i) w = runFrom (settle env (w.store.instances.length + 1) i) w := rfl

end Workflows.Engine
