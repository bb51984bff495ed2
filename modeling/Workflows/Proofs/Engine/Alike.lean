import Workflows.Proofs.Engine.Walk
import Workflows.Proofs.Node.Alike

/-!
# Starts beside a record

An instance that is started reads and writes its own record and those of its descendants.  So it is
started in the same way in two worlds that differ in the record of another instance.

Main statement: what a start does does not depend on a record that is stored already
(`start_agrees`).  The induction is on levels, and within one level on the steps of the walk.
-/

namespace Workflows

theorem Env.agrees_now {ε : Type} {env : Env} {i j : Instance} :
    Agrees (Alike env.idName i j) Unconditional (liftM env.now : Run ε Instant) :=
  Agrees.lift (Alike.steady env).now

theorem Env.agrees_emit {ε : Type} {env : Env} {i j : Instance} (id : String) (m : Happening) :
    Agrees (Alike env.idName i j) Unconditional (liftM (env.emit id m) : Run ε Unit) :=
  Agrees.lift ((Alike.steady env).emit id m)

theorem Env.agrees_freshId {ε : Type} {env : Env} {i j : Instance} :
    Agrees (Alike env.idName i j) (· ≠ i.id) (liftM env.freshId : Run ε String) := by
  intro w w' h
  refine ⟨?_, h.freshId, fun id hid => ?_⟩
  · show (Except.ok (env.idName w'.ids) : Except ε String) = .ok (env.idName w.ids)
    rw [h.ids]
  · cases hid
    exact h.unnamed w.ids (Nat.le_refl _)

theorem Run.agrees_fromStore {ε α : Type} {names : Nat → String} {i j : Instance} {f : Store → α}
    (hf : ∀ w w', Alike names i j w w' → f w'.store = f w.store) :
    Agrees (Alike names i j) Unconditional (Run.fromStore f : Run ε α) :=
  fun w w' h => ⟨congrArg Except.ok (hf w w' h), h, fun _ _ => trivial⟩

theorem Run.agrees_locked {ε α : Type} {names : Nat → String} {i j : Instance} {P : α → Prop}
    {body : Run ε α} (h : Agrees (Alike names i j) P body) (id : String) :
    Agrees (Alike names i j) P (Run.locked id body) := by
  intro w w' hw
  obtain ⟨hsame, hrelated, hans⟩ :=
    h (w.locked id) (w'.locked id) (hw.reads {} {})
  rw [runFrom_locked, runFrom_locked]
  exact ⟨hsame, hrelated.reads {} {}, hans⟩

namespace Engine
variable {env : Env} {launcher : Launcher} {i j k : Instance} {w w' : World}

/-! ## writing other records -/

theorem updateInstance_alike {names : Nat → String} (h : Alike names i j w w') (hk : k.id ≠ i.id) :
    (∃ e, w.store.updateInstance k = .error e ∧ w'.store.updateInstance k = .error e) ∨
      ∃ l, l.id = k.id ∧ w.store.updateInstance k = .ok (w.store.insertInstance l, l) ∧
        w'.store.updateInstance k = .ok (w'.store.insertInstance l, l) := by
  unfold Store.updateInstance
  rw [h.others k.id hk]
  cases w.store.getInstance? k.id with
  | none => exact .inl ⟨_, rfl, rfl⟩
  | some stored =>
    by_cases hv : stored.version = k.version
    · simp only [if_pos hv]
      exact .inr ⟨{ k with version := k.version + 1 }, rfl, rfl, rfl⟩
    · simp only [if_neg hv]
      exact .inl ⟨_, rfl, rfl⟩

theorem persist_agrees (hk : k.id ≠ i.id) :
    Agrees (Alike env.idName i j) (fun l => l.id = k.id) (persist env k) := by
  intro w w' h
  have htime : env.time w' = env.time w := congrArg env.epoch.addNanos h.ticks
  rw [runFrom_persist_eq, runFrom_persist_eq, htime]
  rcases updateInstance_alike (k := { k with updatedAt := env.time w }) h hk with
    ⟨e, hw, hw'⟩ | ⟨l, hl, hw, hw'⟩
  · rw [hw, hw']
    refine ⟨rfl, h.reads {} {}, fun _ hans => ?_⟩
    cases hans
  · rw [hw, hw']
    refine ⟨rfl, h.put (hl.symm ▸ hk), fun _ hans => ?_⟩
    cases hans
    exact hl

theorem persistStatus_agrees (hk : k.id ≠ i.id) :
    Agrees (Alike env.idName i j) Unconditional (persistStatus env k) :=
  (persist_agrees hk).bind fun l _ =>
    (Env.agrees_emit l.id _).next fun _ => Agrees.pure trivial

theorem enterStatus_agrees (hk : k.id ≠ i.id) (status : InstanceStatus) :
    Agrees (Alike env.idName i j) Unconditional (enterStatus env k status) :=
  Env.agrees_now.next fun _ => persistStatus_agrees hk

theorem failInstance_agrees (hk : k.id ≠ i.id) (error : String) :
    Agrees (Alike env.idName i j) Unconditional (failInstance env k error) :=
  Env.agrees_now.next fun _ => persistStatus_agrees hk

theorem park_agrees (hk : k.id ≠ i.id) (o : Outcome) :
    Agrees (Alike env.idName i j) Unconditional (park env k o) :=
  Env.agrees_now.next fun _ => persistStatus_agrees hk

/-! ## nodes of other instances -/

theorem inSession_agrees {α : Type} {f : StateM Session α}
    (hf : Mirrors (SessionsAlike env.idName i j) f) (vars : Vars) :
    Agrees (Alike env.idName i j) Unconditional
      (inSession env vars f : Run EngineError (α × Vars)) := by
  intro w w' h
  obtain ⟨hsame, hrelated⟩ := hf (sessionOf env vars w) (sessionOf env vars w') ⟨rfl, rfl, h⟩
  rw [runFrom_inSession, runFrom_inSession, hsame, hrelated.vars]
  exact ⟨rfl, hrelated.worlds, fun _ _ => trivial⟩

theorem node_mirrors (hl : ∀ r, Agrees (Alike env.idName i j) Unconditional (launcher r))
    (k : Instance) (n : Node) :
    Mirrors (SessionsAlike env.idName i j) (n.runWithRetries (contextOf env launcher k)) := by
  refine Node.runWithRetries_mirrors (c := contextOf env launcher k) n fun other hother r => ?_
  cases hother
  exact hl r

theorem runNode_agrees (hl : ∀ r, Agrees (Alike env.idName i j) Unconditional (launcher r))
    (hk : k.id ≠ i.id) (n : Node) :
    Agrees (Alike env.idName i j) (fun ran => ran.2.id = k.id) (runNode env launcher k n) := by
  refine (Env.agrees_emit _ _).next fun _ => Env.agrees_now.next fun startedAt => ?_
  refine (inSession_agrees (node_mirrors hl _ n) _).next fun ran => Env.agrees_now.next fun _ => ?_
  refine (Env.agrees_emit _ _).next fun _ => ?_
  refine Agrees.bind (persist_agrees ?_) fun l hl' => ?_
  · exact hk
  · exact Agrees.pure hl'

/-- A record that has not ended is not a finished child, so both worlds have the same ones. -/
theorem finishedChild?_alike {names : Nat → String} (h : Alike names i j w w') (o : Outcome) :
    finishedChild? w'.store o = finishedChild? w.store o := by
  unfold finishedChild?
  cases o.wait with
  | none => rfl
  | some wait =>
    simp only [h.getLink?]
    by_cases hid : wait.id = i.id
    · rw [hid, h.left, h.right]
      cases w.store.getLink? i.id with
      | none => rfl
      | some link => simp only [h.leftAlive, h.rightAlive, if_neg Bool.false_ne_true]
    · rw [h.others _ hid]

/-- what goes on is still the instance -/
def Progress.IsOf (id : String) : Progress → Prop
  | .goesOn l => l.id = id
  | .stopped _ => True

theorem applyChild_agrees (hk : k.id ≠ i.id) (n : Node) (child : Instance) (link : ChildLink) :
    Agrees (Alike env.idName i j) (Progress.IsOf k.id) (applyChild env k n child link) := by
  have hid : (k.rememberChild child link.parentNodeId).id = k.id :=
    (Instance.SameOrigin.rememberChild k child link.parentNodeId).id
  unfold applyChild
  dsimp only
  split
  · exact Agrees.pure hid
  · exact (failInstance_agrees (hid.symm ▸ hk) _).next fun _ => Agrees.pure trivial

theorem reconcile_agrees (hk : k.id ≠ i.id) (n : Node) (o : Outcome) :
    Agrees (Alike env.idName i j) (fun p => ∀ p', p = some p' → p'.IsOf k.id)
      (reconcile env k n o) := by
  have hfinished : Agrees (Alike env.idName i j) Unconditional
      (Run.fromStore (finishedChild? · o) : Run EngineError _) :=
    Run.agrees_fromStore fun w w' h => finishedChild?_alike h o
  refine hfinished.next fun finished => ?_
  cases finished with
  | none =>
    refine Agrees.pure ?_
    rintro _ ⟨⟩
  | some finished =>
    obtain ⟨child, link⟩ := finished
    refine (applyChild_agrees hk n child link).bind fun p hp => ?_
    cases p with
    | goesOn l =>
      refine (persist_agrees (hp ▸ hk)).bind fun l' hl' => Agrees.pure ?_
      rintro _ ⟨⟩
      exact hl'.trans hp
    | stopped l =>
      refine Agrees.pure ?_
      rintro _ ⟨⟩
      trivial

/-- what is visited next belongs to the instance -/
def Next.IsOf (id : String) : Next → Prop
  | .visit _ l => l.id = id
  | .stop _ => True

theorem afterNode_agrees (hk : k.id ≠ i.id) (d : Definition) (n : Node) (o : Outcome) :
    Agrees (Alike env.idName i j) (Next.IsOf k.id) (afterNode env d k n o) := by
  have hdone : Agrees (Alike env.idName i j) (Next.IsOf k.id)
      (if n.kind = .finish then return .visit [] k else return .visit (d.nextNodes n o.route) k :
        Run EngineError Next) := by
    split
    · exact Agrees.pure rfl
    · exact Agrees.pure rfl
  have hpark : Agrees (Alike env.idName i j) (Next.IsOf k.id)
      (do return .stop (← park env k o) : Run EngineError Next) :=
    (park_agrees hk o).next fun _ => Agrees.pure trivial
  unfold afterNode
  cases o.status with
  | completed | breakLoop | continueLoop => exact hdone
  | failed => exact (failInstance_agrees hk _).next fun _ => Agrees.pure trivial
  | waiting =>
    dsimp only
    split
    · refine (reconcile_agrees hk n o).bind fun p hp => ?_
      cases p with
      | none => exact hpark
      | some p =>
        cases p with
        | goesOn l => exact Agrees.pure (hp _ rfl)
        | stopped l => exact Agrees.pure trivial
    · exact hpark

/-! ## walks and starts of other instances -/

theorem walk_agrees (hl : ∀ r, Agrees (Alike env.idName i j) Unconditional (launcher r))
    (hk : k.id ≠ i.id) (d : Definition) (steps : Nat) (pending : List String) :
    Agrees (Alike env.idName i j) Unconditional (walk env launcher d steps pending k) := by
  induction steps generalizing pending k with
  | zero =>
    cases pending with
    | nil => exact enterStatus_agrees hk _
    | cons id pending =>
      unfold walk
      cases d.findNode? id with
      | none => exact failInstance_agrees hk _
      | some n => exact failInstance_agrees hk _
  | succ steps ih =>
    cases pending with
    | nil => exact enterStatus_agrees hk _
    | cons id pending =>
      unfold walk
      cases d.findNode? id with
      | none => exact failInstance_agrees hk _
      | some n =>
        refine (runNode_agrees hl hk n).bind fun ran hran => ?_
        refine (afterNode_agrees (hran ▸ hk) d n ran.1).bind fun next hnext => ?_
        cases next with
        | visit targets l => exact ih (hnext ▸ hran ▸ hk) _
        | stop l => exact Agrees.pure trivial

theorem startWith_agrees (hl : ∀ r, Agrees (Alike env.idName i j) Unconditional (launcher r))
    (r : StartRequest) :
    Agrees (Alike env.idName i j) Unconditional (startWith env launcher r) := by
  unfold startWith
  split
  · exact Agrees.throw _ _
  · have hrequested : ∀ w w', Alike env.idName i j w w' →
        requested? w'.store r = requested? w.store r := by
      intro w w' h
      rw [h.rest]
      rfl
    refine (Run.agrees_fromStore hrequested).next fun selected => ?_
    cases selected with
    | none => exact Agrees.throw _ _
    | some selected =>
      have htick : Agrees (Alike env.idName i j) Unconditional
          (liftM World.tick : Run EngineError Unit) :=
        Agrees.lift fun w w' h => ⟨rfl, h.tick⟩
      refine Env.agrees_freshId.bind fun id hid => htick.next fun _ => Env.agrees_now.next
        fun now => ?_
      dsimp only
      generalize hk : newInstance r selected.1 selected.2 id now = k
      have hkid : k.id ≠ i.id := by
        rw [← hk]
        exact hid
      have hinsert : Agrees (Alike env.idName i j) Unconditional
          (liftM (World.changeStore (·.insertInstance k)) : Run EngineError Unit) :=
        Agrees.lift fun w w' h => ⟨rfl, h.put hkid⟩
      refine (Run.agrees_locked (hinsert.next fun _ => (Env.agrees_emit _ _).next fun _ => ?_)
        id).next fun _ => Agrees.pure trivial
      cases selected.1.startNode? with
      | none => exact failInstance_agrees hkid _
      | some n => exact walk_agrees hl hkid _ _ _

theorem startWithin_agrees (levels : Nat) (r : StartRequest) :
    Agrees (Alike env.idName i j) Unconditional (startWithin env levels r) := by
  induction levels generalizing r with
  | zero => exact Agrees.throw _ _
  | succ levels ih => exact startWith_agrees ih r

/-- **An instance is started in the same way beside any record that is stored.** -/
theorem start_agrees (r : StartRequest) :
    Agrees (Alike env.idName i j) Unconditional (start env r) :=
  startWithin_agrees _ r

end Engine
end Workflows
