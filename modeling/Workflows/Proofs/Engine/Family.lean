import Workflows.Proofs.Engine.Level
import Workflows.Proofs.Engine.Status

/-!
# Families

Between calls definitions may be saved again, so a parent may lose the node of its child.  What is
left of a link then is that the child is one level below its stored parent.

* `Reached`        a world that calls have made, with other changes between them
* `Given`          a relation that every child has with the link that is added for it
* `Kin`            a child and its link agree with the stored parent
* `Family`         so do all stored children with a link
* `Act.subject?`   the stored instance that an act is about

Main statements: an act leaves every other instance alone that stands still or has ended
(`Deed.has_other`), and a climb all that are not above its child (`Climb.has_deep`).
-/

namespace Workflows.Engine
variable {names : Nat → String} {maxLevel : Nat} {env : Env} {s s' : Scene} {w w' : World}
  {act : Act} {op : Operation} {result : Except EngineError Unit} {fuel : Nat} {id : String}
  {i j child : Instance} {l link : ChildLink}

/-! ## worlds that are reached -/

/-- A world that calls have made from one without instances. -/
inductive Reached (env : Env) : World → Prop
  | empty {w : World} (hw : w.store.instances = []) (hf : Fresh env.idName w) : Reached env w
  | call {w : World} (h : Reached env w) (c : Call) : Reached env (c.from env w)
  /-- between calls everything may be changed but instances, their links and the generated ids -/
  | edit {w w' : World} (h : Reached env w) (hi : w'.store.instances = w.store.instances)
    (hl : w'.store.links = w.store.links) (hids : w'.ids = w.ids) : Reached env w'

theorem Reached.saveWorkflow (h : Reached env w) (d : Definition) :
    Reached env { w with store := w.store.saveWorkflow d } :=
  h.edit rfl rfl rfl

theorem Reached.after (h : Reached env w) (calls : List Call) :
    Reached env (after env w calls) := by
  induction calls generalizing w with
  | nil => exact h
  | cons c calls ih => exact ih (h.call c)

theorem getInstance?_of_instances (hi : w'.store.instances = w.store.instances) (id : String) :
    w'.store.getInstance? id = w.store.getInstance? id := by
  rw [Store.getInstance?, Store.getInstance?, hi]

theorem getLink?_of_links (hl : w'.store.links = w.store.links) (id : String) :
    w'.store.getLink? id = w.store.getLink? id := by
  rw [Store.getLink?, Store.getLink?, hl]

theorem Orderly.edit (ho : Orderly names w) (hi : w'.store.instances = w.store.instances)
    (hl : w'.store.links = w.store.links) (hids : w'.ids = w.ids) : Orderly names w' := by
  refine ⟨⟨ho.fresh.distinct, fun n hn => ?_, fun n hn => ?_⟩, fun id i h => ?_⟩
  · exact (getInstance?_of_instances hi _).trans (ho.fresh.unstored n (hids ▸ hn))
  · exact (getLink?_of_links hl _).trans (ho.fresh.unlinked n (hids ▸ hn))
  · exact ho.keyed id i ((getInstance?_of_instances hi id).symm.trans h)

/-- What operations keep, and changes of definitions too, holds in every world that is reached. -/
theorem Reached.induct {P : World → Prop} (h : Reached env w)
    (hempty : ∀ {v : World}, v.store.instances = [] → P v)
    (hstep : ∀ {v v' op result}, Orderly env.idName v →
      Performed env.idName env.settings.maxNestingLevel v op result v' → P v → P v')
    (hedit : ∀ {v v' : World}, v'.store.instances = v.store.instances →
      v'.store.links = v.store.links → P v → P v') : Orderly env.idName w ∧ P w := by
  induction h with
  | empty hw hf => exact ⟨orderly_of_empty hw hf, hempty hw⟩
  | call _ c ih =>
    have hc := c.performed env ih.1
    exact ⟨hc.orderly ih.1, hstep ih.1 hc ih.2⟩
  | edit _ hi hl hids ih => exact ⟨ih.1.edit hi hl hids, hedit hi hl ih.2⟩

theorem Reached.orderly (h : Reached env w) : Orderly env.idName w :=
  (h.induct (P := fun _ => True) (fun _ => trivial) (fun _ _ _ => trivial)
    fun _ _ _ => trivial).1

theorem Reached.walked (h : Reached env w) : Walked ⟨[], w⟩ := by
  refine (h.induct (P := fun v => Walked ⟨[], v⟩) walked_of_empty (fun _ hp hv => hp.walked hv)
    fun hi _ hv id i hstored => ?_).2
  exact hv id i ((getInstance?_of_instances hi id).symm.trans hstored)

/-! ## relations of children and links -/

/-- A relation that every child has with the link that is added for it. -/
def Given (R : Store → Instance → ChildLink → Prop) : Prop :=
  ∀ ⦃fs : List Frame⦄ ⦃d : Definition⦄ ⦃w : World⦄ ⦃p : Instance⦄ ⦃l : ChildLink⦄
    ⦃child : Instance⦄, Links fs d w p l → w.store.getInstance? p.id = some p →
      w.store.getInstance? l.childId = some child → R w.store child l

section
variable {R : Store → Instance → ChildLink → Prop}

theorem upkeep_eachLinked (hR : Lasting R) (hg : Given R) :
    Upkeep names maxLevel (fun _ => True) (EachLinked R) where
  quiet hq hl := hl.quiet hR hq
  move hm hl := by
    refine hm.eachLinked hR hl fun f fs w p l child he hp hid hlinks hchild => ?_
    subst he
    exact hg hlinks (stored_of_frame hp hid) hchild
  opening ho _ hl := ho.eachLinked hR hl
  step {v i} n o vars t t' now hstored hl := by
    have hsame := (sameOrigin_recordStep i n o vars t t').written now
    have hwrites : Writes names maxLevel v _ := .record hstored hsame rfl rfl rfl
    exact hl.record hR hstored hsame rfl hwrites.kept

/-- **A lasting relation of children and links is kept by operations**, if each child has it with
the link that is added for it. -/
theorem Performed.eachLinked (hR : Lasting R) (hg : Given R)
    (h : Performed names maxLevel w op result w') (hl : EachLinked R w) : EachLinked R w' :=
  (upkeep_eachLinked hR hg).performed h (fun _ _ => trivial) hl

end

/-! ## children below their parents -/

structure Kin (st : Store) (child : Instance) (link : ChildLink) : Prop where
  parentId : child.parentId = some link.parentId
  parent : ∃ p, st.getInstance? link.parentId = some p ∧ child.nestingLevel = p.nestingLevel + 1

def Family (w : World) : Prop := EachLinked Kin w

theorem Kin.lasting : Lasting Kin := by
  intro s t child child' link hk hkept hsame
  obtain ⟨p, hp, hlevel⟩ := hk.parent
  obtain ⟨q, hq, hpq⟩ := hkept.instances _ p hp
  refine ⟨hsame.parentId.trans hk.parentId, q, hq, ?_⟩
  rw [hsame.nestingLevel, hlevel, hpq.nestingLevel]

theorem Kin.given : Given Kin := by
  intro fs d w p l child h hp hc
  obtain ⟨child', hchild', hparent, hlevel⟩ := h.child
  cases Option.some.inj (hchild'.symm.trans hc)
  refine ⟨by rw [hparent, h.parent], p, ?_, hlevel⟩
  rw [h.parent]
  exact hp

theorem Deed.family (h : Deed names maxLevel act w w') (hf : Family w) : Family w' :=
  (upkeep_eachLinked Kin.lasting Kin.given).deed h (fun _ _ => trivial) hf

theorem Performed.family (h : Performed names maxLevel w op result w') (hf : Family w) :
    Family w' :=
  h.eachLinked Kin.lasting Kin.given hf

theorem Reached.family (h : Reached env w) : Family w := by
  refine (h.induct (P := Family) (fun hw id link child _ hc => ?_) (fun _ hp hv => hp.family hv)
    fun {v v'} hi hl hv id link child hlink hchild => ?_).2
  · exact absurd hc (not_stored_of_empty hw)
  · rw [getLink?_of_links hl] at hlink
    rw [getInstance?_of_instances hi] at hchild
    obtain ⟨hparent, p, hp, hlevel⟩ := hv id link child hlink hchild
    exact ⟨hparent, p, (getInstance?_of_instances hi _).trans hp, hlevel⟩

/-! ## what acts leave alone -/

def Act.subject? : Act → Option String
  | .start _ => none
  | .resume id _ _ | .pause id | .cancel id => some id
  | .wake link _ => some link.parentId

theorem Opening.has_other (h : Opening names maxLevel act w s) (hne : act.subject? ≠ some id)
    (hi : Has id i w) : Has id i s.world := by
  have hput : ∀ {j k : Instance}, act.subject? = some k.id → k.SameOrigin j → Has id i (w.put j) :=
    fun hs ho => hi.put_of_ne fun he => hne (hs.trans (congrArg some (he.trans ho.id).symm))
  cases h with
  | start hc => exact hi.started hc
  | resume data now =>
    exact hput rfl (((sameOrigin_withData _ _ data).trans (sameOrigin_goingOn _ _ now)).written now)
  | wake now h =>
    exact hput (congrArg some h.reports.parent)
      (((sameOrigin_withOutputs _ _ _).trans (sameOrigin_goingOn _ _ now)).written now)
  | note now h =>
    exact hput (congrArg some h.reports.parent) ((sameOrigin_noted _ _ _).written now)
  | failWith now h =>
    exact hput (congrArg some h.reports.parent) ((sameOrigin_failedWith _ _ _ now).written now)
  | pause now => exact hput rfl ((sameOrigin_held _ now).written now)
  | cancel now => exact hput rfl ((sameOrigin_setStatus _ _ now).written now)

/-- **An act leaves every other instance alone** that stands still or has ended. -/
theorem Deed.has_other (h : Deed names maxLevel act w w') (hr : i.status ≠ .running)
    (hne : act.subject? ≠ some id) (hi : Has id i w) : Has id i w' := by
  obtain ⟨v, scene, hquiet, hopening, hmoves⟩ := h
  exact Moves.has_resting hmoves hr (hopening.has_other hne (hi.quiet hquiet))

theorem Moves.quiet_of_nil (h : Moves names maxLevel s s') (hs : s.frames = []) :
    s'.frames = [] ∧ Quiet s.world s'.world := by
  induction h with
  | refl => exact ⟨hs, Quiet.refl _⟩
  | tail _ hm ih =>
    obtain ⟨hnil, hq⟩ := ih
    cases hm with
    | quiet hq' => exact ⟨hnil, hq.trans hq'⟩
    | create => cases hnil
    | link => cases hnil
    | advance => cases hnil
    | halt => cases hnil

theorem Climb.has_start (h : Climb names maxLevel fuel child w result w') (hc : Has id child w) :
    Has id child w' := by
  by_cases ht : child.status.isTerminal = true
  · exact h.has_ended ht hc
  · cases h with
    | exhausted => exact hc
    | ended => exact hc
    | refused hw => exact absurd hw.terminal ht
    | up hw => exact absurd hw.terminal ht

theorem WaitedFor.level (h : WaitedFor w.store child i link) (hf : Family w) :
    child.nestingLevel = i.nestingLevel + 1 := by
  obtain ⟨p, hp, hlevel⟩ := (hf child.id link child h.linked h.stored).parent
  cases Option.some.inj (hp.symm.trans h.parent)
  exact hlevel

/-- **A climb leaves all instances alone that are not above its child.** -/
theorem Climb.has_deep (h : Climb names maxLevel fuel child w result w') (hf : Family w)
    (hr : i.status ≠ .running) (hl : child.nestingLevel ≤ i.nestingLevel) (hi : Has id i w) :
    Has id i w' := by
  induction h with
  | exhausted => exact hi
  | ended => exact hi
  | refused _ _ hidle => exact hi.quiet hidle.quiet
  | @up fuel child parent j link w u w' result hw hdeed hj _ ih =>
    have hlevel := hw.level hf
    have hne : (Act.wake link child).subject? ≠ some id := by
      intro he
      cases Option.some.inj he
      cases Option.some.inj (hi.symm.trans hw.parent)
      omega
    obtain ⟨k, hk, hsame⟩ := hdeed.kept.instances _ _ hw.parent
    cases Option.some.inj (hk.symm.trans hj)
    refine ih (hdeed.family hf) ?_ (hdeed.has_other hr hne hi)
    rw [hsame.nestingLevel]
    omega

end Workflows.Engine
