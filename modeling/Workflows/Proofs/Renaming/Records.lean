import Workflows.Proofs.Renaming.Attempts

/-!
# Records under other names

What the engine writes into the record of an instance, it writes into the other form of the record: a new state, the
run of a node, the outcome of a child.

* `Instances.record`, `takeOver`         the changes of a record
* `persist_tallies`, `failInstance_tallies`   writing it
* `Tallies.getInstance_bind`             reading it
-/

namespace Workflows

namespace Renaming
open Engine
variable {ρ : Renaming} {i i' child child' : Instance} {link link' : ChildLink} {o o' : Outcome} {n : Node}
  {d : Definition} {w w' : World} {env env' : Env} {α α' β β' : Type} {P : α → α' → Prop} {Q : β → β' → Prop}

/-! ## changes of a record -/

namespace Instances

theorem setStatus (h : ρ.Instances i i') (status : InstanceStatus) (now : Instant) :
    ρ.Instances (i.setStatus status now) (i'.setStatus status now) := by
  refine { h with status := rfl, updatedAt := rfl, completedAt := ?_, waitingFor := ?_ }
  · show Option.Rel ρ.Waits (if status = .waiting then i.waitingFor else none)
      (if status = .waiting then i'.waitingFor else none)
    split
    · exact h.waitingFor
    · exact .none
  · show (if status.isTerminal then some now else i'.completedAt) =
      if status.isTerminal then some now else i.completedAt
    rw [h.completedAt]

theorem fail {e e' : String} (h : ρ.Instances i i') (he : ρ.Messages e e') (friendly : String) (now : Instant) :
    ρ.Instances (i.fail e friendly now) (i'.fail e' friendly now) := by
  have hfailed : ρ.Instances { i with error := some e, friendlyError := some friendly }
      { i' with error := some e', friendlyError := some friendly } :=
    { h with error := .some he, friendlyError := rfl }
  exact hfailed.setStatus .failed now

theorem record (h : ρ.Instances i i') (n : Node) (ho : ρ.Outcomes o o') (startedAt completedAt : Instant) :
    ρ.Instances (i.record n o startedAt completedAt) (i'.record n o' startedAt completedAt) := by
  refine { h with vars := ?_, log := ?_, nodeStatuses := ?_ }
  · unfold Instance.record
    simp only [ho.status]
    rcases rel_cases ho.output with ⟨hv, hv'⟩ | ⟨v, v', hv, hv', hvalue⟩
    · rw [hv, hv']
      exact h.vars
    · rw [hv, hv']
      simp only
      split
      · exact h.vars.insert n.id hvalue
      · exact h.vars
  · exact List.rel_append h.log (.cons ⟨rfl, rfl, ho.status, rfl, rfl, ho.error, ho.output, ho.retries⟩ .nil)
  · show Dict.insert i'.nodeStatuses n.id o'.status = Dict.insert i.nodeStatuses n.id o.status
    rw [h.nodeStatuses, ho.status]

theorem withData {data data' : Option Json} (h : ρ.Instances i i') (nodeId : String)
    (hdata : Option.Rel ρ.Value data data') : ρ.Instances (withData i nodeId data) (withData i' nodeId data') := by
  cases hdata with
  | none => exact h
  | some hvalue => exact { h with vars := h.vars.insert nodeId hvalue }

/-! ### children -/

theorem any_child {es es' : List ChildEntry} (h : List.Forall₂ ρ.Children es es') (hid : ρ.Id child.id child'.id) :
    (es'.any fun e => e.instanceId = child'.id) = es.any fun e => e.instanceId = child.id := by
  induction h with
  | nil => rfl
  | cons he _ ih => rw [List.any_cons, List.any_cons, ih, decide_eq_decide.mpr (he.instanceId.inj hid)]

theorem rememberChild (h : ρ.Instances i i') (hchild : ρ.Instances child child') (nodeId : String) :
    ρ.Instances (i.rememberChild child nodeId) (i'.rememberChild child' nodeId) := by
  unfold Instance.rememberChild
  rw [any_child h.children hchild.id]
  split
  · exact h
  · refine { h with children := List.rel_append h.children (.cons ?_ .nil) }
    exact ⟨hchild.id, hchild.workflowId, rfl, hchild.status, hchild.completedAt⟩

theorem loggedOutput? {log log' : List LogEntry} (h : List.Forall₂ ρ.Entries log log') (name : String) :
    Option.Rel ρ.Value (loggedOutput? log name) (loggedOutput? log' name) :=
  rel_findSome? (List.rel_reverse h) fun _ _ he => rel_bind he.output fun _ _ hv => hv.member? name

theorem childOutputs (h : ρ.Instances child child') (mapping : Dict String) :
    ρ.Binds (childOutputs child mapping) (childOutputs child' mapping) := by
  refine Binds.filterMap fun m _ => ?_
  unfold childOutput?
  rcases rel_cases (h.vars.lookup? m.2) with ⟨hv, hv'⟩ | ⟨v, v', hv, hv', hvalue⟩
  · rw [hv, hv']
    exact loggedOutput? h.log m.2
  · rw [hv, hv']
    exact .some hvalue

theorem takeOver (h : ρ.Instances i i') (hchild : ρ.Instances child child') (nodeId : String)
    (hlink : ρ.Links link link') :
    ρ.Instances (takeOver i child nodeId link) (takeOver i' child' nodeId link') := by
  have houtputs := hchild.childOutputs link.outputMapping
  rw [← hlink.outputMapping] at houtputs
  have hsummary : ρ.Value
      (.ofMembers [("child_instance_id", .str child.id), ("status", child.status.encode),
        ("outputs", .obj (Workflows.childOutputs child link'.outputMapping))])
      (.ofMembers [("child_instance_id", .str child'.id), ("status", child'.status.encode),
        ("outputs", .obj (Workflows.childOutputs child' link'.outputMapping))]) := by
    rw [hchild.status]
    exact .ofMembers (.cons _ (.ofId hchild.id) (.cons _ (Value.refl _) (.cons _ (.obj houtputs) .nil)))
  unfold Engine.takeOver
  rw [← hlink.outputMapping]
  refine { h with vars := ?_, nodeStatuses := ?_ }
  · exact Dict.Related.overlay (h.vars.insert nodeId hsummary) houtputs
  · show Dict.insert i'.nodeStatuses nodeId .completed = Dict.insert i.nodeStatuses nodeId .completed
    rw [h.nodeStatuses]

end Instances

/-! ## computations of the engine -/

theorem Worlds.time (h : ρ.Worlds w w') (henv : ρ.Environments env env') : env'.time w' = env.time w := h.now henv

namespace Tallies

/-- a step on the world that cannot fail -/
theorem lift_bind {g : StateM World α} {g' : StateM World α'} {f : α → Run EngineError β}
    {f' : α' → Run EngineError β'} (h : ρ.Tallies Q (f (g.run w).1) (f' (g'.run w').1) (g.run w).2 (g'.run w').2) :
    ρ.Tallies Q (liftM g >>= f) (liftM g' >>= f') w w' := by
  show Beside _ _ _ (runFrom (liftM g >>= f) w) (runFrom (liftM g' >>= f') w')
  rw [runFrom_lift_bind, runFrom_lift_bind]
  exact h

/-- the store is read -/
theorem fromStore_bind {g : Store → α} {g' : Store → α'} {f : α → Run EngineError β} {f' : α' → Run EngineError β'}
    (h : ρ.Tallies Q (f (g w.store)) (f' (g' w'.store)) w w') :
    ρ.Tallies Q (Run.fromStore g >>= f) (Run.fromStore g' >>= f') w w' := h

/-- both runs hold the lock of an instance -/
theorem locked {id id' : String} {x : Run EngineError α} {x' : Run EngineError α'}
    (h : ρ.Tallies P x x' (w.locked id) (w'.locked id')) : ρ.Tallies P (Run.locked id x) (Run.locked id' x') w w' :=
  ⟨h.answers, h.states.unread⟩

end Tallies

theorem Worlds.locked (h : ρ.Worlds w w') (id id' : String) : ρ.Worlds (w.locked id) (w'.locked id') := h.unread

/-! ## writing -/

theorem fresh_of_update {s : Store} {j : Instance} (hf : Fresh ρ.names w) (h : w.store.updateInstance i = .ok (s, j)) :
    Fresh ρ.names { w with store := s } := by
  unfold Store.updateInstance at h
  split at h
  · cases h
  · next stored hstored =>
    split at h
    · cases h
      exact hf.put (i := { i with version := i.version + 1 }) hstored
    · cases h

theorem persist_tallies (henv : ρ.Environments env env') (hw : ρ.Worlds w w') (hi : ρ.Instances i i') :
    ρ.Tallies ρ.Instances (persist env i) (persist env' i') w w' := by
  have hnow : ρ.Instances { i with updatedAt := env.time w } { i' with updatedAt := env'.time w' } :=
    { hi with updatedAt := hw.time henv }
  have hwritten := hw.store.updateInstance hnow
  show Beside _ _ _ (runFrom (persist env i) w) (runFrom (persist env' i') w')
  rw [runFrom_persist_eq, runFrom_persist_eq]
  cases hu : w.store.updateInstance { i with updatedAt := env.time w } with
  | error e =>
    rw [hu] at hwritten
    cases hu' : w'.store.updateInstance { i' with updatedAt := env'.time w' } with
    | error e' => exact ⟨.error trivial, hw.unread⟩
    | ok written' =>
      rw [hu'] at hwritten
      cases hwritten
  | ok written =>
    rw [hu] at hwritten
    cases hu' : w'.store.updateInstance { i' with updatedAt := env'.time w' } with
    | error e' =>
      rw [hu'] at hwritten
      cases hwritten
    | ok written' =>
      rw [hu'] at hwritten
      cases hwritten with
      | ok h => exact ⟨.ok h.2, { hw with store := h.1, fresh := fresh_of_update hw.fresh hu }⟩

/-- a record in a new state is announced -/
theorem persistStatus_tallies (henv : ρ.Environments env env') (hw : ρ.Worlds w w') (hi : ρ.Instances i i') :
    ρ.Tallies ρ.Instances (persistStatus env i) (persistStatus env' i') w w' :=
  Beside.next (persist_tallies henv hw hi) fun _ _ _ _ hj hv => Tallies.lift_bind (.pure hv.unread hj)

theorem enterStatus_tallies (henv : ρ.Environments env env') (hw : ρ.Worlds w w') (hi : ρ.Instances i i')
    (status : InstanceStatus) : ρ.Tallies ρ.Instances (enterStatus env i status) (enterStatus env' i' status) w w' := by
  refine Tallies.lift_bind (persistStatus_tallies henv hw ?_)
  show ρ.Instances (i.setStatus status (env.time w)) (i'.setStatus status (env'.time w'))
  rw [hw.time henv]
  exact hi.setStatus status _

/-- Errors that differ in ids without keywords are explained alike. -/
theorem failInstance_tallies {e e' : String} (henv : ρ.Environments env env') (hρ : ρ.Harmless) (hw : ρ.Worlds w w')
    (hi : ρ.Instances i i') (he : ρ.Messages e e') :
    ρ.Tallies ρ.Instances (failInstance env i e) (failInstance env' i' e') w w' := by
  refine Tallies.lift_bind (persistStatus_tallies henv hw ?_)
  show ρ.Instances (i.fail e (friendlyMessage e) (env.time w)) (i'.fail e' (friendlyMessage e') (env'.time w'))
  rw [hw.time henv, he.friendlyMessage hρ]
  exact hi.fail he _ _

theorem park_tallies (henv : ρ.Environments env env') (hw : ρ.Worlds w w') (hi : ρ.Instances i i')
    (ho : ρ.Outcomes o o') : ρ.Tallies ρ.Instances (park env i o) (park env' i' o') w w' := by
  refine Tallies.lift_bind (persistStatus_tallies henv hw ?_)
  show ρ.Instances { i.setStatus .waiting (env.time w) with waitingFor := o.wait }
    { i'.setStatus .waiting (env'.time w') with waitingFor := o'.wait }
  rw [hw.time henv]
  exact { hi.setStatus .waiting _ with waitingFor := ho.wait }

/-! ## reading -/

theorem Stores.definitionOf? {s s' : Store} (h : ρ.Stores s s') (hi : ρ.Instances i i') :
    definitionOf? s' i' = definitionOf? s i := by
  unfold Engine.definitionOf? Store.resolve?
  simp only [hi.workflowVersion, hi.workflowId, h.resolvePinned?, h.getWorkflow?]

namespace Tallies

/-- a record is read that both stores have, or none -/
theorem getInstance_bind {id id' : String} {f : Instance → Run EngineError β} {f' : Instance → Run EngineError β'}
    (hw : ρ.Worlds w w') (hid : ρ.Id id id')
    (h : ∀ i i', w.store.getInstance? id = some i → ρ.Instances i i' → ρ.Tallies Q (f i) (f' i') w w') :
    ρ.Tallies Q (getInstance id >>= f) (getInstance id' >>= f') w w' := by
  show Beside _ _ _ (runFrom (getInstance id >>= f) w) (runFrom (getInstance id' >>= f') w')
  rcases rel_cases (hw.store.instances hid) with ⟨hi, hi'⟩ | ⟨i, i', hi, hi', hrel⟩
  · rw [runFrom_bind_error (runFrom_getInstance_none hi), runFrom_bind_error (runFrom_getInstance_none hi')]
    exact ⟨.error trivial, hw⟩
  · rw [runFrom_bind_ok (runFrom_getInstance hi), runFrom_bind_ok (runFrom_getInstance hi')]
    exact h i i' hi hrel

theorem definitionFor_bind {f : Definition → Run EngineError β} {f' : Definition → Run EngineError β'}
    (hw : ρ.Worlds w w') (hi : ρ.Instances i i')
    (h : ∀ d, definitionOf? w.store i = some d → ρ.Tallies Q (f d) (f' d) w w') :
    ρ.Tallies Q (definitionFor i >>= f) (definitionFor i' >>= f') w w' := by
  have hsame := hw.store.definitionOf? hi
  show Beside _ _ _ (runFrom (definitionFor i >>= f) w) (runFrom (definitionFor i' >>= f') w')
  cases hd : definitionOf? w.store i with
  | none =>
    rw [runFrom_bind_error (runFrom_definitionFor_none hd),
      runFrom_bind_error (runFrom_definitionFor_none (hsame.trans hd))]
    exact ⟨.error trivial, hw⟩
  | some d =>
    rw [runFrom_bind_ok (runFrom_definitionFor hd), runFrom_bind_ok (runFrom_definitionFor (hsame.trans hd))]
    exact h d hd

theorem getNode_bind {id : String} {f : Node → Run EngineError β} {f' : Node → Run EngineError β'} (hw : ρ.Worlds w w')
    (h : ∀ n, d.findNode? id = some n → ρ.Tallies Q (f n) (f' n) w w') :
    ρ.Tallies Q (getNode d id >>= f) (getNode d id >>= f') w w' := by
  show Beside _ _ _ (runFrom (getNode d id >>= f) w) (runFrom (getNode d id >>= f') w')
  cases hn : d.findNode? id with
  | none =>
    rw [runFrom_bind_error (runFrom_getNode_none hn), runFrom_bind_error (runFrom_getNode_none hn)]
    exact ⟨.error trivial, hw⟩
  | some n =>
    rw [runFrom_bind_ok (runFrom_getNode hn), runFrom_bind_ok (runFrom_getNode hn)]
    exact h n hn

end Tallies

end Renaming
end Workflows
