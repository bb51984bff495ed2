import Workflows.Proofs.Engine.Tour
import Workflows.Proofs.Renaming.Walks

/-!
# Operations under other names

Calls one after another, in two runs that name ids differently.  Where nothing that the first run looks at holds a
generated id, and no id holds a keyword of the table of failures, the two runs end alike: an instance of the one has its
counterpart in the other, in the same state, with the same nodes in its log and the same explanation of its failure.

* `Operation.looks`, `callLooks`     what an operation and calls look at
* `Renaming.Operations`, `Calls`     calls of the two runs
* `Renaming.Ended`                   what is the same of an instance in the two runs

Main statement: random ids do not influence behaviour (`renamed_ended`).
-/

namespace Workflows

namespace Engine

/-! ## What is looked at -/

section
variable (env : Env)

/-- what is looked at behind a node that is done -/
def continueLooks (d : Definition) (i : Instance) (n : Node) (nodeId : String) (route : Option String) (w : World) :
    List Json :=
  match runFrom (persistStatus env (goingOn i nodeId (env.time w))) w with
  | (.ok i, w) => walkLooks env (startLooks env) d env.settings.maxStepsPerTraversal (d.nextNodes n route) i w
  | (.error _, _) => []

/-- what a parent looks at that is woken -/
def wakeLooks (link : ChildLink) (child : Instance) (w : World) : List Json :=
  match w.store.getInstance? link.parentId with
  | none => []
  | some parent => match definitionOf? w.store parent with
    | none => []
    | some d => match d.findNode? link.parentNodeId with
      | none => []
      | some n => match runFrom (applyChild env parent n child link) w with
        | (.ok (.goesOn parent), w) =>
          if parent.status = .paused then [] else continueLooks env d parent n link.parentNodeId none w
        | (_, _) => []

/-- what is looked at while the end of an instance is told upward -/
def settleLooks : (fuel : Nat) → Instance → World → List Json
  | 0, _, _ => []
  | fuel + 1, child, w =>
    match waitedFor? w.store child with
    | none => []
    | some (_, link) => wakeLooks env link child (w.locked link.parentId) ++
      match runFrom (lockedWake env link child) w with
      | (.ok (some j), w) => settleLooks fuel j w
      | (_, _) => []

def finishLooks : Except EngineError Instance × World → List Json
  | (.ok i, w) => settleLooks env (w.store.instances.length + 1) i w
  | (.error _, _) => []

/-- an instance is continued under its lock -/
def lockedResume (id nodeId : String) (data : Option Json) : Run EngineError Instance :=
  Run.locked id do
    let i ← getInstance id
    if i.status.isParked then
      let d ← definitionFor i
      let n ← getNode d nodeId
      continueAfter env d (withData i nodeId data) n nodeId (data.bind routeOf)
    else throw (i.refuse "resume")

/-- an instance is cancelled under its lock -/
def lockedCancel (id : String) : Run EngineError Instance :=
  Run.locked id do
    let i ← getInstance id
    if i.status.isTerminal then throw (i.refuse "cancel")
    else enterStatus env i .cancelled

/-- a resumption looks at the route in its data -/
def resumeLooks (id nodeId : String) (data : Option Json) (w : World) : List Json :=
  match resumable? w.store id nodeId with
  | none => []
  | some (i, d, n) => (data.bind routeOf).toList.map Json.str ++
      continueLooks env d (withData i nodeId data) n nodeId (data.bind routeOf) (w.locked id)

def stepLooks (id nodeId : String) (w : World) : List Json :=
  match w.store.getInstance? id with
  | none => []
  | some i => match definitionOf? w.store i with
    | none => []
    | some d => match d.findNode? nodeId with
      | none => []
      | some n => nodeLooks env (startLooks env) i n (w.locked id)

/-- what an operation looks at in a world -/
def Operation.looks (w : World) : Operation → List Json
  | .start r => startLooks env r w
  | .resume id nodeId data =>
    resumeLooks env id nodeId data w ++ finishLooks env (runFrom (lockedResume env id nodeId data) w)
  | .pause _ => []
  | .cancel id => finishLooks env (runFrom (lockedCancel env id) w)
  | .step id nodeId => stepLooks env id nodeId w

/-- what calls one after another look at -/
def callLooks : List Call → World → List Json
  | [], _ => []
  | c :: calls, w => c.operation.looks { env with epoch := c.time } w ++ callLooks calls (c.from env w)

end

variable {env : Env} {w : World}

theorem resume_eq (id nodeId : String) (data : Option Json) :
    resume env id nodeId data = lockedResume env id nodeId data >>= finish env := rfl

theorem cancel_eq (id : String) : cancel env id = lockedCancel env id >>= finish env := rfl

/-- the end of an instance is told to the parent that waits for it, if one does -/
theorem runFrom_settle_succ (fuel : Nat) (child : Instance) :
    runFrom (settle env (fuel + 1) child) w = match waitedFor? w.store child with
      | none => (.ok (), w)
      | some (_, link) => runFrom (lockedWake env link child >>= fun parent => match parent with
        | some parent => settle env fuel parent
        | none => pure ()) w := by
  conv => lhs; unfold settle
  unfold waitedFor?
  split
  · rw [runFrom_fromStore_bind]
    cases hlink : w.store.getLink? child.id with
    | none => rfl
    | some link =>
      simp only [Option.bind_eq_bind, Option.bind_some]
      rw [runFrom_bind_ok (runFrom_isParkedOn link.parentId child.id w)]
      cases hparent : w.store.getInstance? link.parentId with
      | none => rfl
      | some parent =>
        simp only [Option.bind_some]
        split
        · rfl
        · rfl
  · rfl

end Engine

/-! ## The two runs -/

namespace Renaming
open Engine
variable (ρ : Renaming)

/-- an operation and its other form -/
inductive Operations : Operation → Operation → Prop
  | start {r r' : StartRequest} (h : ρ.Requests r r') : Operations (.start r) (.start r')
  | resume {id id' : String} {data data' : Option Json} (hid : ρ.Id id id') (nodeId : String)
    (hdata : Option.Rel ρ.Value data data') : Operations (.resume id nodeId data) (.resume id' nodeId data')
  | pause {id id' : String} (hid : ρ.Id id id') : Operations (.pause id) (.pause id')
  | cancel {id id' : String} (hid : ρ.Id id id') : Operations (.cancel id) (.cancel id')
  | step {id id' : String} (hid : ρ.Id id id') (nodeId : String) : Operations (.step id nodeId) (.step id' nodeId)

/-- calls at the same time -/
structure Calls (c c' : Call) : Prop where
  time : c'.time = c.time
  operation : ρ.Operations c.operation c'.operation

variable {ρ} {i i' child child' : Instance} {link link' : ChildLink} {n : Node} {d : Definition} {w w' : World}
  {env env' : Env} {id id' nodeId : String} {data data' : Option Json} {route : Option String}

/-! ### going on behind a node -/

theorem startsAlike (henv : ρ.Environments env env') (hρ : ρ.Harmless) (level : Nat) :
    ρ.StartsAlike env env' level (startLooks env) := fun _ _ _ _ _ hr hw hunseen => start_tallies henv hρ hw hr hunseen

theorem continueAfter_tallies (henv : ρ.Environments env env') (hρ : ρ.Harmless) (hw : ρ.Worlds w w')
    (hi : ρ.Instances i i') (hunseen : ρ.Unseen (continueLooks env d i n nodeId route w)) :
    ρ.Tallies ρ.Instances (continueAfter env d i n nodeId route) (continueAfter env' d i' n nodeId route) w w' := by
  have hgoing : ρ.Instances (goingOn i nodeId (env.time w)) (goingOn i' nodeId (env'.time w')) := by
    rw [hw.time henv]
    refine { hi.setStatus .running (env.time w) with nodeStatuses := ?_ }
    show Dict.insert i'.nodeStatuses nodeId .completed = Dict.insert i.nodeStatuses nodeId .completed
    rw [hi.nodeStatuses]
  refine Tallies.lift_bind (Beside.bind (persistStatus_tallies henv hw hgoing) fun j j' u u' hrun hj hu => ?_)
  have hrun' : runFrom (persistStatus env (goingOn i nodeId (env.time w))) w = (.ok j, u) := hrun
  unfold continueLooks at hunseen
  simp only [hrun'] at hunseen
  unfold walkFrom
  rw [henv.settings]
  exact walk_tallies henv hρ hu hj _ _ (startsAlike henv hρ _) hunseen

/-! ### parents -/

theorem Instances.isParkedOn (hi : ρ.Instances i i') (hid : ρ.Id id id') : i'.isParkedOn id' = i.isParkedOn id := by
  unfold Instance.isParkedOn
  rw [hi.status]
  rcases rel_cases hi.waitingFor with ⟨hwait, hwait'⟩ | ⟨wait, wait', hwait, hwait', hrel⟩
  · rw [hwait, hwait']
  · rw [hwait, hwait']
    simp only [hrel.id.inj hid]

theorem isParkedOn_bind {α α' : Type} {Q : α → α' → Prop} {f : Bool → Run EngineError α}
    {f' : Bool → Run EngineError α'}
    (hw : ρ.Worlds w w') (hid : ρ.Id id id') (hchild : ρ.Instances child child')
    (h : ∀ b, ρ.Tallies Q (f b) (f' b) w w') :
    ρ.Tallies Q (isParkedOn id child.id >>= f) (isParkedOn id' child'.id >>= f') w w' := by
  show Beside _ _ _ (runFrom (isParkedOn id child.id >>= f) w) (runFrom (isParkedOn id' child'.id >>= f') w')
  rw [runFrom_bind_ok (runFrom_isParkedOn id child.id w), runFrom_bind_ok (runFrom_isParkedOn id' child'.id w')]
  rcases rel_cases (hw.store.instances hid) with ⟨hi, hi'⟩ | ⟨i, i', hi, hi', hrel⟩
  · rw [hi, hi']
    exact h false
  · simp only [hi, hi', hrel.isParkedOn hchild.id]
    exact h _

theorem wakeParent_tallies (henv : ρ.Environments env env') (hρ : ρ.Harmless) (hw : ρ.Worlds w w')
    (hlink : ρ.Links link link') (hchild : ρ.Instances child child')
    (hunseen : ρ.Unseen (wakeLooks env link child w)) :
    ρ.Tallies ρ.Instances (wakeParent env link child) (wakeParent env' link' child') w w' := by
  unfold wakeLooks at hunseen
  refine Tallies.getInstance_bind hw hlink.parentId fun parent parent' hparent hrel => ?_
  rw [hlink.parentNodeId]
  refine Tallies.definitionFor_bind hw hrel fun d hd => Tallies.getNode_bind hw fun n hn => ?_
  simp only [hparent, hd, hn] at hunseen
  refine Beside.bind (applyChild_tallies henv hρ hw hrel hchild hlink) fun p p' u u' hrun hp hu => ?_
  cases hp with
  | stopped hj => exact .pure hu hj
  | @goesOn j j' hj =>
    simp only [hrun] at hunseen
    show ρ.Tallies _ (if j.status = .paused then _ else _) (if j'.status = .paused then _ else _) u u'
    by_cases hpaused : j.status = .paused
    · have hnoted : ρ.Instances { j with waitingFor := none } { j' with waitingFor := none } :=
        { hj with waitingFor := .none }
      rw [if_pos hpaused, if_pos (hj.status.trans hpaused)]
      exact persist_tallies henv hu hnoted
    · have hpaused' : j'.status ≠ .paused := fun h => hpaused (hj.status.symm.trans h)
      rw [if_neg hpaused] at hunseen
      rw [if_neg hpaused, if_neg hpaused']
      exact continueAfter_tallies henv hρ hu hj hunseen

theorem lockedWake_tallies (henv : ρ.Environments env env') (hρ : ρ.Harmless) (hw : ρ.Worlds w w')
    (hlink : ρ.Links link link') (hchild : ρ.Instances child child')
    (hunseen : ρ.Unseen (wakeLooks env link child (w.locked link.parentId))) :
    ρ.Tallies (Option.Rel ρ.Instances) (lockedWake env link child) (lockedWake env' link' child') w w' := by
  have hlocked := hw.locked link.parentId link'.parentId
  refine Tallies.locked (isParkedOn_bind hlocked hlink.parentId hchild fun parked => ?_)
  split
  · exact (wakeParent_tallies henv hρ hlocked hlink hchild hunseen).next fun _ _ _ _ hj hu => .pure hu (.some hj)
  · exact .pure hlocked .none

theorem Stores.waitedFor? {s s' : Store} (h : ρ.Stores s s') (hchild : ρ.Instances child child') :
    Option.Rel (fun p p' => ρ.Instances p.1 p'.1 ∧ ρ.Links p.2 p'.2) (waitedFor? s child) (waitedFor? s' child') := by
  have hparent : child'.parentId.isSome = child.parentId.isSome := by
    rcases rel_cases hchild.parentId with ⟨hp, hp'⟩ | ⟨p, p', hp, hp', -⟩
    · rw [hp, hp']
    · rw [hp, hp']
      rfl
  unfold Engine.waitedFor?
  rw [hchild.status, hparent]
  split
  · refine rel_bind (h.links hchild.id) fun l l' hl => rel_bind (h.instances hl.parentId) fun p p' hp => ?_
    rw [hp.isParkedOn hchild.id]
    split
    · exact .some ⟨hp, hl⟩
    · exact .none
  · exact .none

/-- The induction is on the fuel. -/
theorem settle_tallies (henv : ρ.Environments env env') (hρ : ρ.Harmless) (hw : ρ.Worlds w w')
    (hchild : ρ.Instances child child') (fuel : Nat) (hunseen : ρ.Unseen (settleLooks env fuel child w)) :
    ρ.Tallies (fun _ _ => True) (settle env fuel child) (settle env' fuel child') w w' := by
  induction fuel generalizing child child' w w' with
  | zero => exact .pure hw trivial
  | succ fuel ih =>
    unfold settleLooks at hunseen
    show Beside _ _ _ (runFrom (settle env (fuel + 1) child) w) (runFrom (settle env' (fuel + 1) child') w')
    rw [runFrom_settle_succ, runFrom_settle_succ]
    rcases rel_cases (hw.store.waitedFor? hchild) with ⟨hf, hf'⟩ | ⟨⟨p, l⟩, ⟨p', l'⟩, hf, hf', -, hlink⟩
    · rw [hf, hf']
      exact .pure hw trivial
    · simp only [hf] at hunseen
      rw [hf, hf']
      refine Beside.bind (lockedWake_tallies henv hρ hw hlink hchild hunseen.left) fun q q' u u' hrun hq hu => ?_
      cases hq with
      | none => exact .pure hu trivial
      | some hj =>
        have hrest := hunseen.right
        simp only [hrun] at hrest
        exact ih hu hj hrest

/-- the parents of an instance are told -/
theorem finish_tallies (henv : ρ.Environments env env') (hρ : ρ.Harmless) {x x' : Run EngineError Instance}
    (hx : ρ.Tallies ρ.Instances x x' w w') (hunseen : ρ.Unseen (finishLooks env (runFrom x w))) :
    ρ.Tallies (fun _ _ => True) (x >>= finish env) (x' >>= finish env') w w' := by
  refine Beside.bind hx fun j j' u u' hrun hj hu => ?_
  rw [hrun] at hunseen
  rw [runFrom_finish, runFrom_finish, hu.store.count]
  exact settle_tallies henv hρ hu hj _ hunseen

/-! ### operations on a stored instance -/

theorem Value.str? {v v' : Json} (h : ρ.Value v v') (hfree : ∀ s, v.str? = some s → ρ.Free (.str s)) :
    v'.str? = v.str? := by
  rcases h.inv with rfl | ⟨m, rfl, rfl⟩ | ⟨items, others, rfl, rfl, -⟩ | ⟨vs, ws, rfl, rfl, -⟩
  · rfl
  · exact absurd rfl (hfree _ rfl _ List.mem_cons_self m).1
  · rfl
  · rfl

/-- a route that is no generated id is taken in both runs -/
theorem routeOf_eq {v v' : Json} (h : ρ.Value v v') (hfree : ∀ s, routeOf v = some s → ρ.Free (.str s)) :
    routeOf v' = routeOf v := by
  unfold routeOf at hfree ⊢
  have hmember : Option.Rel ρ.Value (v.member? "route" <|> v.member? "decision")
      (v'.member? "route" <|> v'.member? "decision") := by
    rcases rel_cases (h.member? "route") with ⟨hv, hv'⟩ | ⟨m, m', hv, hv', hm⟩
    · rw [hv, hv']
      exact h.member? "decision"
    · rw [hv, hv']
      exact .some hm
  rcases rel_cases hmember with ⟨hv, hv'⟩ | ⟨m, m', hv, hv', hm⟩
  · rw [hv, hv']
  · rw [hv] at hfree
    rw [hv, hv']
    exact hm.str? hfree

theorem route_eq (hdata : Option.Rel ρ.Value data data')
    (hunseen : ρ.Unseen ((data.bind routeOf).toList.map Json.str)) : data'.bind routeOf = data.bind routeOf := by
  cases hdata with
  | none => rfl
  | some hv =>
    refine routeOf_eq hv fun s hs => hunseen _ (List.mem_map.mpr ⟨s, ?_, rfl⟩)
    exact Option.mem_toList.mpr hs

theorem lockedResume_tallies (henv : ρ.Environments env env') (hρ : ρ.Harmless) (hw : ρ.Worlds w w') (hid : ρ.Id id id')
    (hdata : Option.Rel ρ.Value data data') (hunseen : ρ.Unseen (resumeLooks env id nodeId data w)) :
    ρ.Tallies ρ.Instances (lockedResume env id nodeId data) (lockedResume env' id' nodeId data') w w' := by
  have hlocked := hw.locked id id'
  unfold resumeLooks at hunseen
  refine Tallies.locked (Tallies.getInstance_bind hlocked hid fun i i' hstored hi => ?_)
  rw [hi.status]
  split
  · next hparked =>
    refine Tallies.definitionFor_bind hlocked hi fun d hd => Tallies.getNode_bind hlocked fun n hn => ?_
    have hresumable : resumable? w.store id nodeId = some (i, d, n) := resumable?_eq_some.mpr ⟨hstored, hparked, hd, hn⟩
    rw [hresumable] at hunseen
    rw [route_eq hdata hunseen.left]
    exact continueAfter_tallies henv hρ hlocked (hi.withData nodeId hdata) hunseen.right
  · exact .throw hlocked trivial

theorem lockedCancel_tallies (henv : ρ.Environments env env') (hw : ρ.Worlds w w') (hid : ρ.Id id id') :
    ρ.Tallies ρ.Instances (lockedCancel env id) (lockedCancel env' id') w w' := by
  have hlocked := hw.locked id id'
  refine Tallies.locked (Tallies.getInstance_bind hlocked hid fun i i' _ hi => ?_)
  rw [hi.status]
  split
  · exact .throw hlocked trivial
  · exact enterStatus_tallies henv hlocked hi .cancelled

theorem pause_tallies (henv : ρ.Environments env env') (hw : ρ.Worlds w w') (hid : ρ.Id id id') :
    ρ.Tallies (fun _ _ => True) (pause env id) (pause env' id') w w' := by
  have hlocked := hw.locked id id'
  refine Tallies.locked (Tallies.getInstance_bind hlocked hid fun i i' _ hi => ?_)
  rw [hi.status]
  split
  · exact .throw hlocked trivial
  · split
    · exact .pure hlocked trivial
    · have hheld : ρ.Instances (held i (env.time (w.locked id))) (held i' (env'.time (w'.locked id'))) := by
        rw [hlocked.time henv]
        exact { hi.setStatus .paused _ with waitingFor := hi.waitingFor }
      exact Tallies.lift_bind ((persistStatus_tallies henv hlocked hheld).next fun _ _ _ _ _ hu => .pure hu trivial)

theorem stepNode_tallies (henv : ρ.Environments env env') (hρ : ρ.Harmless) (hw : ρ.Worlds w w') (hid : ρ.Id id id')
    (hunseen : ρ.Unseen (stepLooks env id nodeId w)) :
    ρ.Tallies (fun _ _ => True) (stepNode env id nodeId) (stepNode env' id' nodeId) w w' := by
  have hlocked := hw.locked id id'
  unfold stepLooks at hunseen
  refine Tallies.locked (Tallies.getInstance_bind hlocked hid fun i i' hstored hi => ?_)
  refine Tallies.definitionFor_bind hlocked hi fun d hd => Tallies.getNode_bind hlocked fun n hn => ?_
  have hstored' : w.store.getInstance? id = some i := hstored
  have hd' : definitionOf? w.store i = some d := hd
  simp only [hstored', hd', hn] at hunseen
  have hnode := attempt_ends (hlocked.session henv hi) (hi.context henv (start env) (start env')) rfl rfl hunseen.left
    ((startsAlike henv hρ _).childAlike hunseen)
  refine Tallies.lift_bind ((inSession_tallies hnode).next fun (o, vars) (o', vars') u u' hp hu => ?_)
  have hrecord := hi.ran n hp.2 hp.1 (hlocked.time henv) (hu.time henv)
  exact Tallies.lift_bind ((persist_tallies henv hu hrecord).next fun _ _ _ _ _ hv => .pure hv trivial)

/-! ### calls -/

/-- An operation that looks at no generated id leads to corresponding worlds. -/
theorem run_tallies {op op' : Operation} (henv : ρ.Environments env env') (hρ : ρ.Harmless) (hw : ρ.Worlds w w')
    (hop : ρ.Operations op op') (hunseen : ρ.Unseen (op.looks env w)) :
    ρ.Tallies (fun _ _ => True) (op.run env) (op'.run env') w w' := by
  cases hop with
  | start hr => exact (start_tallies henv hρ hw hr hunseen).next fun _ _ _ _ _ hu => .pure hu trivial
  | resume hid nodeId hdata =>
    dsimp only [Operation.run]
    rw [resume_eq, resume_eq]
    exact finish_tallies henv hρ (lockedResume_tallies henv hρ hw hid hdata hunseen.left) hunseen.right
  | pause hid => exact pause_tallies henv hw hid
  | cancel hid =>
    dsimp only [Operation.run]
    rw [cancel_eq, cancel_eq]
    exact finish_tallies henv hρ (lockedCancel_tallies henv hw hid) hunseen
  | step hid nodeId => exact (stepNode_tallies henv hρ hw hid hunseen).next fun _ _ _ _ _ hu => .pure hu trivial

theorem Environments.at (henv : ρ.Environments env env') (time : Instant) :
    ρ.Environments { env with epoch := time } { env' with epoch := time } := { henv with epoch := rfl }

theorem after_worlds {calls calls' : List Call} (henv : ρ.Environments env env') (hρ : ρ.Harmless) (hw : ρ.Worlds w w')
    (hcalls : List.Forall₂ ρ.Calls calls calls') (hunseen : ρ.Unseen (callLooks env calls w)) :
    ρ.Worlds (after env w calls) (after env' w' calls') := by
  induction hcalls generalizing w w' with
  | nil => exact hw
  | @cons c c' calls calls' hc _ ih =>
    refine ih ?_ hunseen.right
    have hrun := run_tallies (henv.at c.time) hρ hw hc.operation hunseen.left
    show ρ.Worlds (runFrom (c.operation.run { env with epoch := c.time }) w).2
      (runFrom (c'.operation.run { env' with epoch := c'.time }) w').2
    rw [hc.time]
    exact hrun.states

/-! ### worlds to begin with -/

/-- A world that holds none of the ids corresponds to itself. -/
theorem Worlds.refl (hordered : w.store.instances.Ordered)
    (hinstances : ∀ id i, w.store.getInstance? id = some i → ρ.Foreign id ∧ ρ.Instances i i)
    (hlinks : ∀ id l, w.store.getLink? id = some l → ρ.Foreign id ∧ ρ.Links l l) : ρ.Worlds w w := by
  have hnone : ∀ n, w.store.getInstance? (ρ.names n) = none ∧ w.store.getInstance? (ρ.others n) = none := fun n =>
    ⟨Option.eq_none_iff_forall_ne_some.mpr fun i hi => ((hinstances _ i hi).1 n).1 rfl,
      Option.eq_none_iff_forall_ne_some.mpr fun i hi => ((hinstances _ i hi).1 n).2 rfl⟩
  have hunlinked : ∀ n, w.store.getLink? (ρ.names n) = none ∧ w.store.getLink? (ρ.others n) = none := fun n =>
    ⟨Option.eq_none_iff_forall_ne_some.mpr fun l hl => ((hlinks _ l hl).1 n).1 rfl,
      Option.eq_none_iff_forall_ne_some.mpr fun l hl => ((hlinks _ l hl).1 n).2 rfl⟩
  refine ⟨⟨rfl, rfl, rfl, rfl, rfl, rfl, rfl, ?_, fun {id id'} hid => ?_, fun {id id'} hid => ?_, rfl, hordered,
    hordered, ?_, ?_⟩, rfl, rfl, rfl, ρ.names_injective, fun n _ => (hnone n).1, fun n _ => (hunlinked n).1⟩
  · exact Dict.Related.refl fun c _ => List.forall₂_same.mpr fun v _ => Value.refl v
  · cases hid with
    | foreign =>
      cases hi : w.store.getInstance? id with
      | none => exact .none
      | some i => exact .some (hinstances id i hi).2
    | generated n =>
      rw [(hnone n).1, (hnone n).2]
      exact .none
  · cases hid with
    | foreign =>
      cases hl : w.store.getLink? id with
      | none => exact .none
      | some l => exact .some (hlinks id l hl).2
    | generated n =>
      rw [(hunlinked n).1, (hunlinked n).2]
      exact .none
  · exact fun {id i} hi => ⟨id, .foreign (hinstances id i hi).1⟩
  · exact fun {id i} hi => ⟨id, .foreign (hinstances id i hi).1⟩

/-! ### what is the same -/

/-- An instance has ended up alike in the two runs: in the same state, after the same nodes, with the same explanation
of the same error; the error may quote ids of children. -/
structure Ended (ρ : Renaming) (i i' : Instance) : Prop where
  status : i'.status = i.status
  log : i'.log.map (fun e => (e.nodeId, e.nodeType, e.status, e.error)) =
    i.log.map (fun e => (e.nodeId, e.nodeType, e.status, e.error))
  friendlyError : i'.friendlyError = i.friendlyError
  error : Option.Rel ρ.Messages i.error i'.error

theorem Instances.ended (hi : ρ.Instances i i') : ρ.Ended i i' := by
  refine ⟨hi.status, ?_, hi.friendlyError, hi.error⟩
  have hlog := hi.log
  generalize i.log = log at hlog ⊢
  generalize i'.log = log' at hlog ⊢
  induction hlog with
  | nil => rfl
  | cons he _ ih => rw [List.map_cons, List.map_cons, ih, he.nodeId, he.nodeType, he.status, he.error]

/-- **Random ids do not influence behaviour, where no keyword of the table stands in one.**  Two runs of the same calls
that differ in the generated ids only, the first of which looks at none of them, end with the same instances. -/
theorem renamed_ended {calls calls' : List Call} (henv : ρ.Environments env env') (hρ : ρ.Harmless) (hw : ρ.Worlds w w')
    (hcalls : List.Forall₂ ρ.Calls calls calls') (hunseen : ρ.Unseen (callLooks env calls w)) :
    (∀ id i, (after env w calls).store.getInstance? id = some i →
      ∃ id' i', ρ.Id id id' ∧ (after env' w' calls').store.getInstance? id' = some i' ∧ ρ.Ended i i') ∧
    (∀ id' i', (after env' w' calls').store.getInstance? id' = some i' →
      ∃ id i, ρ.Id id id' ∧ (after env w calls).store.getInstance? id = some i ∧ ρ.Ended i i') := by
  have hafter := (after_worlds henv hρ hw hcalls hunseen).store
  constructor
  · intro id i hi
    obtain ⟨id', hid⟩ := hafter.known hi
    rcases rel_cases (hafter.instances hid) with ⟨hnone, -⟩ | ⟨j, j', hj, hj', hrel⟩
    · cases hi.symm.trans hnone
    · cases hi.symm.trans hj
      exact ⟨id', j', hid, hj', hrel.ended⟩
  · intro id' i' hi'
    obtain ⟨id, hid⟩ := hafter.known' hi'
    rcases rel_cases (hafter.instances hid) with ⟨-, hnone⟩ | ⟨j, j', hj, hj', hrel⟩
    · cases hi'.symm.trans hnone
    · cases hi'.symm.trans hj'
      exact ⟨id, j, hid, hj, hrel.ended⟩

end Renaming

/-! ## A small world -/

namespace Engine.Sample
open Renaming

/-- the ids of the small world, and the same behind some text -/
def behind (text : String) : Renaming where
  names := names
  others := fun n => text ++ names n
  names_injective := names_injective
  others_injective := fun _ _ h => names_injective (String.append_right_inj text |>.mp h)

def envBehind (text : String) : Env := { env with idName := fun n => text ++ names n }

/-- the parent is started, and then its child is cancelled -/
def cancelled (child : String) : List Call := [⟨⟨0, 0⟩, .start (.of "parent")⟩, ⟨⟨1, 0⟩, .cancel child⟩]

theorem environments (text : String) : (behind text).Environments env (envBehind text) :=
  ⟨rfl, rfl, rfl, rfl, fun _ _ _ _ => rfl⟩

theorem worlds (text : String) : (behind text).Worlds world world :=
  .refl .nil (fun _ _ h => nomatch h) fun _ _ h => nomatch h

theorem renamed_calls (text : String) :
    List.Forall₂ (behind text).Calls (cancelled "ii") (cancelled (text ++ "ii")) :=
  .cons ⟨rfl, .start ⟨rfl, .nil, .none, rfl, rfl⟩⟩ (.cons ⟨rfl, .cancel (.generated 1)⟩ .nil)

theorem chars_names {n : Nat} {c : Char} (h : c ∈ (names n).toList) : c = 'i' := by
  rw [names, String.toList_ofList] at h
  exact List.eq_of_mem_replicate h

/-- the form of the child is awaited under its name -/
theorem callLooks_cancelled : callLooks env (cancelled "ii") world = [.str "question"] := by decide +kernel

theorem unseen {text : String} (h : 'q' ∉ text.toList) :
    (behind text).Unseen (callLooks env (cancelled "ii") world) := by
  have hq : ∀ n, 'q' ∉ (names n).toList := fun n hmem => nomatch chars_names hmem
  rw [callLooks_cancelled]
  intro v hv s hs n
  cases List.mem_singleton.mp hv
  cases List.mem_singleton.mp hs
  have hquestion : 'q' ∈ "question".toList := by decide
  refine ⟨fun (heq : "question" = names n) => hq n (heq ▸ hquestion), fun (heq : "question" = text ++ names n) => ?_⟩
  rw [heq, String.toList_append] at hquestion
  rcases List.mem_append.mp hquestion with hmem | hmem
  · exact h hmem
  · exact hq n hmem

/-! ### ids without keywords -/

theorem classify?_plain {s : String} (h : ∀ c ∈ s.toList, c = 'i' ∨ c = 'j') : classify? s = none := by
  have hkeywords : (failureRules.all fun rule => rule.keywords.all fun k => k.toList.any fun c => c ≠ 'i' && c ≠ 'j') =
      true := by
    decide +kernel
  simp only [List.all_eq_true, List.any_eq_true, Bool.and_eq_true, decide_eq_true_eq] at hkeywords
  refine List.find?_eq_none.mpr fun rule hrule hmatch => ?_
  obtain ⟨k, hk, hoccurs⟩ := List.any_eq_true.mp hmatch
  have hsmall : ∀ c ∈ s.toList, c.toNat < 128 ∧ c.toLower = c := by
    intro c hc
    rcases h c hc with rfl | rfl
    · decide
    · decide
  rw [Text.occursIn, Text.occursInChars_iff, Text.lowercase, String.toList_ofList,
    Text.lowerChars_small hsmall] at hoccurs
  obtain ⟨c, hc, hi, hj⟩ := hkeywords rule hrule k hk
  exact (h c (hoccurs.subset hc)).elim hi hj

theorem harmless : (behind "j").Harmless := by
  refine ⟨fun n => classify?_plain fun c hc => .inl (chars_names hc), fun n => classify?_plain fun c hc => ?_⟩
  have hmem : c ∈ "j".toList ++ (names n).toList := String.toList_append ▸ hc
  rcases List.mem_append.mp hmem with hmem | hmem
  · exact .inr (List.mem_singleton.mp hmem)
  · exact .inl (chars_names hmem)

/-- The parent fails with its child in both runs, and its failure is explained alike. -/
theorem renamed_ended_cancelled : (behind "j").Environments env (envBehind "j") ∧ (behind "j").Harmless ∧
    (behind "j").Worlds world world ∧
    List.Forall₂ (behind "j").Calls (cancelled "ii") (cancelled ("j" ++ "ii")) ∧
    (behind "j").Unseen (callLooks env (cancelled "ii") world) ∧
    ∃ i id' i', (after env world (cancelled "ii")).store.getInstance? "i" = some i ∧ i.status = .failed ∧
      (behind "j").Id "i" id' ∧
      (after (envBehind "j") world (cancelled ("j" ++ "ii"))).store.getInstance? id' = some i' ∧
      (behind "j").Ended i i' := by
  have hunseen : (behind "j").Unseen (callLooks env (cancelled "ii") world) := unseen (by decide)
  have hfailed : ((after env world (cancelled "ii")).store.getInstance? "i").map (·.status) = some .failed := by
    decide +kernel
  obtain ⟨i, hi, hstatus⟩ := Option.map_eq_some_iff.mp hfailed
  obtain ⟨id', i', hid, hi', hended⟩ :=
    (renamed_ended (environments "j") harmless (worlds "j") (renamed_calls "j") hunseen).1 "i" i hi
  exact ⟨environments "j", harmless, worlds "j", renamed_calls "j", hunseen, i, id', i', hi, hstatus, hid, hi', hended⟩

/-- A keyword in an id is taken for the cause of a failure: with ids behind `404`, the parent of the child that is
cancelled tells its user of a resource that could not be found. -/
theorem explained_by_id : (behind "404").Environments env (envBehind "404") ∧ (behind "404").Worlds world world ∧
    List.Forall₂ (behind "404").Calls (cancelled "ii") (cancelled ("404" ++ "ii")) ∧
    (behind "404").Unseen (callLooks env (cancelled "ii") world) ∧ (behind "404").Id "i" ("404" ++ "i") ∧
    ((after env world (cancelled "ii")).store.getInstance? "i").map (·.friendlyError) =
      some (some defaultFriendlyMessage) ∧
    ((after (envBehind "404") world (cancelled ("404" ++ "ii"))).store.getInstance? ("404" ++ "i")).map
      (·.friendlyError) = some (some "The requested resource could not be found.") := by
  refine ⟨environments "404", worlds "404", renamed_calls "404", unseen (by decide), .generated 0, ?_, ?_⟩
  · decide +kernel
  · decide +kernel

end Engine.Sample
end Workflows
