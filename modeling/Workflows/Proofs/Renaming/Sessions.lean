import Workflows.Proofs.Renaming.Worlds

/-!
# The steps of a node under other names

Two runs of a node begin in corresponding sessions.  Each step that a node can make leads to corresponding sessions
again, with corresponding answers; where it fails, it fails for the same reason in both runs.

* `Renaming.Sessions`, `Contexts`   sessions and contexts of a node in the two runs
* `Renaming.Accords`                two computations of a node from two sessions
* `Renaming.Tallies`                two computations of the engine from two worlds
-/

namespace Workflows

namespace Renaming
variable (ρ : Renaming)

/-- sessions of a node in the two runs -/
structure Sessions (s s' : Session) : Prop where
  vars : ρ.Binds s.vars s'.vars
  loops : s'.loops = s.loops
  world : ρ.Worlds s.world s'.world

/-- contexts of a node in the two runs; the launchers are left out -/
structure Contexts (c c' : NodeContext) : Prop where
  env : ρ.Environments c.env c'.env
  instanceId : ρ.Id c.instanceId c'.instanceId
  nestingLevel : c'.nestingLevel = c.nestingLevel

/-- two computations of a node fail for the same reason, or have corresponding answers -/
abbrev Accords {α α' : Type} (Q : α → α' → Prop) (x : NodeRun α) (x' : NodeRun α') (s s' : Session) : Prop :=
  Beside Eq ρ.Sessions Q (runFrom x s) (runFrom x' s')

/-- two computations of the engine both fail, or have corresponding answers -/
abbrev Tallies {α α' : Type} (Q : α → α' → Prop) (x : Run EngineError α) (x' : Run EngineError α')
    (w w' : World) : Prop :=
  Beside (fun _ _ => True) ρ.Worlds Q (runFrom x w) (runFrom x' w')

variable {ρ} {α α' β β' : Type} {P : α → α' → Prop} {Q : β → β' → Prop} {s s' : Session} {c c' : NodeContext} {n : Node}
  {w w' : World}

/-! ## sessions -/

theorem Sessions.withWorld (hs : ρ.Sessions s s') (hw : ρ.Worlds w w') :
    ρ.Sessions { s with world := w } { s' with world := w' } := { hs with world := hw }

theorem Sessions.withVar {v v' : Json} (hs : ρ.Sessions s s') (name : String) (hv : ρ.Value v v') :
    ρ.Sessions { s with vars := Dict.insert s.vars name v } { s' with vars := Dict.insert s'.vars name v' } :=
  { hs with vars := hs.vars.insert name hv }

/-! ## settings and variables -/

namespace Accords
variable {f : α → NodeRun β} {f' : α → NodeRun β'}

theorem next {x : NodeRun α} {x' : NodeRun α'} {f' : α' → NodeRun β'} (hx : ρ.Accords P x x' s s')
    (h : ∀ a a' t t', P a a' → ρ.Sessions t t' → ρ.Accords Q (f a) (f' a') t t') :
    ρ.Accords Q (x >>= f) (x' >>= f') s s' := Beside.next hx h

theorem misconfigured (hs : ρ.Sessions s s') (reason : String) :
    ρ.Accords P (NodeRun.misconfigured reason) (NodeRun.misconfigured reason) s s' := .throw hs rfl

theorem settings {decode : Decoder α} (hs : ρ.Sessions s s')
    (h : ∀ a, n.read? decode = some a → ρ.Accords Q (f a) (f' a) s s') :
    ρ.Accords Q (n.settings decode >>= f) (n.settings decode >>= f') s s' := by
  unfold Node.settings
  cases hread : decode (if n.data.isNull then .obj [] else n.data) with
  | some a => exact h a hread
  | none => exact .throw hs rfl

theorem demand {value : Option α} {reason : String} (hs : ρ.Sessions s s')
    (h : ∀ a, value = some a → ρ.Accords Q (f a) (f' a) s s') :
    ρ.Accords Q (NodeRun.demand value reason >>= f) (NodeRun.demand value reason >>= f') s s' := by
  cases value with
  | some a => exact h a rfl
  | none => exact .throw hs rfl

theorem vars {f : Vars → NodeRun β} {f' : Vars → NodeRun β'} (h : ρ.Accords Q (f s.vars) (f' s'.vars) s s') :
    ρ.Accords Q (NodeRun.vars >>= f) (NodeRun.vars >>= f') s s' := h

theorem setVar {v v' : Json} (hs : ρ.Sessions s s') (name : String) (hv : ρ.Value v v') :
    ρ.Accords (fun _ _ => True) (NodeRun.setVar name v) (NodeRun.setVar name v') s s' :=
  ⟨.ok trivial, hs.withVar name hv⟩

theorem setVar? {v v' : Json} (hs : ρ.Sessions s s') (name : Option String) (hv : ρ.Value v v') :
    ρ.Accords (fun _ _ => True) (NodeRun.setVar? name v) (NodeRun.setVar? name v') s s' := by
  cases name with
  | some name => exact setVar hs name hv
  | none => exact .pure hs trivial

/-! ## the world -/

theorem onWorld {g : StateM World α} {g' : StateM World α'} (hs : ρ.Sessions s s')
    (hanswer : P (g.run s.world).1 (g'.run s'.world).1) (hworld : ρ.Worlds (g.run s.world).2 (g'.run s'.world).2) :
    ρ.Accords P (NodeRun.onWorld g) (NodeRun.onWorld g') s s' := ⟨.ok hanswer, hs.withWorld hworld⟩

theorem now (hs : ρ.Sessions s s') (hc : ρ.Contexts c c') : ρ.Accords Eq c.now c'.now s s' :=
  onWorld hs (hs.world.now hc.env).symm hs.world

theorem freshId (hs : ρ.Sessions s s') (hc : ρ.Contexts c c') : ρ.Accords ρ.Id c.freshId c'.freshId s s' :=
  onWorld hs (hs.world.generated hc.env) hs.world.freshId

/-- what a node says may differ -/
theorem message (hs : ρ.Sessions s s') (m m' : NodeMessage) :
    ρ.Accords (fun _ _ => True) (c.message n m) (c'.message n m') s s' := onWorld hs trivial hs.world.unread

theorem info (hs : ρ.Sessions s s') (m m' : String) :
    ρ.Accords (fun _ _ => True) (c.info n m) (c'.info n m') s s' := message hs _ _

theorem warn (hs : ρ.Sessions s s') (m m' : String) :
    ρ.Accords (fun _ _ => True) (c.warn n m) (c'.warn n m') s s' := message hs _ _

theorem fromStore {g : Store → α} {g' : Store → α'} (hs : ρ.Sessions s s')
    (h : P (g s.world.store) (g' s'.world.store)) :
    ρ.Accords P (NodeRun.fromStore g) (NodeRun.fromStore g') s s' := onWorld hs h hs.world

theorem changeStore {g g' : Store → Store} (hs : ρ.Sessions s s') (h : ρ.Stores (g s.world.store) (g' s'.world.store))
    (hcore : (g s.world.store).core = s.world.store.core) :
    ρ.Accords (fun _ _ => True) (NodeRun.changeStore g) (NodeRun.changeStore g') s s' :=
  onWorld hs trivial (hs.world.store_of_core h hcore)

theorem onStore {g : Store → Except StorageError α × Store} {g' : Store → Except StorageError α' × Store}
    (hs : ρ.Sessions s s') (h : Beside Eq ρ.Stores P (g s.world.store) (g' s'.world.store))
    (hcore : (g s.world.store).2.core = s.world.store.core) :
    ρ.Accords P (NodeRun.onStore g) (NodeRun.onStore g') s s' := by
  have hworld : ρ.Accords (Answers Eq P) (NodeRun.onWorld (World.onStore g))
      (NodeRun.onWorld (World.onStore g')) s s' :=
    onWorld hs h.answers (hs.world.store_of_core h.states hcore)
  refine hworld.next fun r r' t t' hr ht => ?_
  cases hr with
  | ok ha => exact .pure ht ha
  | error he => exact .throw ht (congrArg NodeError.storage he)

theorem deadline (hs : ρ.Sessions s s') (hc : ρ.Contexts c c') (seconds : Float) :
    ρ.Accords Eq (n.deadline c seconds) (n.deadline c' seconds) s s' := by
  refine (now hs hc).next fun a a' t t' ha ht => ?_
  rw [← ha]
  cases Node.laterBy? a seconds with
  | some time => exact .pure ht rfl
  | none => exact .throw ht rfl

end Accords

/-! ## outcomes -/

namespace Outcomes
variable {o o' : Outcome} {v v' : Json}

theorem done (h : ρ.Value v v') : ρ.Outcomes (.done v) (.done v') := ⟨rfl, .some h, rfl, .none, rfl, rfl⟩

/-- an outcome without a wait has itself for another form -/
theorem refl (h : o.wait = none) : ρ.Outcomes o o := by
  refine ⟨rfl, ?_, rfl, ?_, rfl, rfl⟩
  · cases o.output with
    | none => exact .none
    | some v => exact .some (Value.refl v)
  · rw [h]
    exact .none

theorem waiting {id id' : String} (kind : WaitKind) (hid : ρ.Id id id') (deadline : Option Instant) (h : ρ.Value v v') :
    ρ.Outcomes (.waiting ⟨kind, id, deadline⟩ (some v)) (.waiting ⟨kind, id', deadline⟩ (some v')) :=
  ⟨rfl, .some h, rfl, .some ⟨rfl, hid, rfl⟩, rfl, rfl⟩

end Outcomes

/-- values with members that correspond -/
theorem Value.ofMembers {ms ms' : Vars} (h : ρ.Binds ms ms') : ρ.Value (.ofMembers ms) (.ofMembers ms') :=
  .obj (Dict.Related.ofList h)

/-- one more member, and the others -/
theorem Binds.cons {v v' : Json} {vs vs' : Vars} (name : String) (hv : ρ.Value v v') (h : ρ.Binds vs vs') :
    ρ.Binds ((name, v) :: vs) ((name, v') :: vs') := List.Forall₂.cons ⟨rfl, hv⟩ h

end Renaming
end Workflows
