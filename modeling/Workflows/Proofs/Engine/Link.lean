import Workflows.Proofs.Engine.Kept
import Workflows.Proofs.Store.Saved

/-!
# Links of parents and children

* `Joined`        a child and its link agree with the stored parent, and its definition has the node
                  of the link
* `Linked`        so do all stored children with a link
* `EachLinked`    a relation of all stored children and their links, `Linked` for one
* `Framed`        what is walked is stored, with the definition that it is walked through
* `Consistent`    the parts of the invariant that links need

Main statement: moves and openings keep it (`Moves.consistent`, `Opening.consistent`).
-/

namespace Workflows

theorem Kept.filed {st t : Store} (h : Kept st t) (hf : st.Filed) : t.Filed := by
  refine ⟨fun id d hd => ?_, fun id v hv => ?_, fun id v hv x hx => ?_⟩
  · exact hf.workflow id d ((h.getWorkflow? id).symm.trans hd)
  · exact hf.version id v (h.listVersions id ▸ hv)
  · exact hf.labels id v (h.listVersions id ▸ hv) x (h.listVersions id ▸ hx)

theorem Kept.definition {st t : Store} (h : Kept st t) {id : String} {p : Instance} {d : Definition}
    (hp : st.getInstance? id = some p) (hd : Engine.definitionOf? st p = some d) :
    ∃ q, t.getInstance? id = some q ∧ p.SameOrigin q ∧ Engine.definitionOf? t q = some d := by
  obtain ⟨q, hq, hpq⟩ := h.instances id p hp
  refine ⟨q, hq, hpq, ?_⟩
  rw [h.definitionOf?, hpq.definitionOf?]
  exact hd

namespace Engine
variable {names : Nat → String} {maxLevel : Nat} {s s' : Scene} {w w' : World} {act : Act}
  {child j : Instance}
  {l : ChildLink}

structure Joined (st : Store) (child : Instance) (link : ChildLink) : Prop where
  childId : link.childId = child.id
  level : link.nestingLevel = child.nestingLevel
  parentId : child.parentId = some link.parentId
  parent : ∃ p d n, st.getInstance? link.parentId = some p ∧
    child.nestingLevel = p.nestingLevel + 1 ∧
    definitionOf? st p = some d ∧ d.findNode? link.parentNodeId = some n

def Linked (w : World) : Prop :=
  ∀ id link child, w.store.getLink? id = some link → w.store.getInstance? id = some child →
    Joined w.store child link

def Framed (s : Scene) : Prop :=
  ∀ f ∈ s.frames, ∃ i, s.world.store.getInstance? f.instanceId = some i ∧
    definitionOf? s.world.store i = some f.definition

structure Consistent (s : Scene) : Prop where
  filed : s.world.store.Filed
  keyed : s.world.store.Keyed
  framed : Framed s
  linked : Linked s.world

/-! ## kept by every write -/

theorem Joined.kept {st t : Store} (hj : Joined st child l) (h : Kept st t) {child' : Instance}
    (hc : child.SameOrigin child') : Joined t child' l := by
  obtain ⟨p, d, n, hp, hlevel, hd, hn⟩ := hj.parent
  obtain ⟨q, hq, hpq, hdq⟩ := h.definition hp hd
  refine ⟨hj.childId.trans hc.id.symm, hj.level.trans hc.nestingLevel.symm,
    hc.parentId.trans hj.parentId, q, d, n, hq, ?_, hdq, hn⟩
  rw [hc.nestingLevel, hlevel, hpq.nestingLevel]

theorem Framed.kept {fs : List Frame} (hf : Framed ⟨fs, w⟩) (h : Kept w.store w'.store) :
    Framed ⟨fs, w'⟩ := by
  intro f hmem
  obtain ⟨i, hi, hd⟩ := hf f hmem
  obtain ⟨k, hk, _, hdk⟩ := h.definition hi hd
  exact ⟨k, hk, hdk⟩

/-- the origin of a record that is read after a write -/
theorem origin_of_put {i k : Instance} {id : String} (hi : w.store.getInstance? i.id = some i)
    (ho : i.SameOrigin j) (hk : (w.put j).store.getInstance? id = some k) :
    ∃ k₀, w.store.getInstance? id = some k₀ ∧ k₀.SameOrigin k := by
  rw [World.getInstance?_put] at hk
  split at hk
  · next he =>
    cases hk
    refine ⟨i, ?_, ho⟩
    rw [he, ho.id]
    exact hi
  · exact ⟨k, hk, Instance.SameOrigin.refl k⟩

/-! ## links -/

/-- Each stored child with a link is related to it. -/
def EachLinked (R : Store → Instance → ChildLink → Prop) (w : World) : Prop :=
  ∀ id link child, w.store.getLink? id = some link → w.store.getInstance? id = some child →
    R w.store child link

/-- A relation of children and links that lasts while no instance is lost. -/
def Lasting (R : Store → Instance → ChildLink → Prop) : Prop :=
  ∀ s t child child' link, R s child link → Kept s t → Instance.SameOrigin child child' →
    R t child' link

theorem Joined.lasting : Lasting Joined := fun _ _ _ _ _ hj hk hc => hj.kept hk hc

section
variable {R : Store → Instance → ChildLink → Prop}

theorem EachLinked.quiet (hR : Lasting R) (hl : EachLinked R w) (h : Quiet w w') :
    EachLinked R w' := by
  intro id link child hlink hchild
  rw [h.getLink?] at hlink
  rw [h.getInstance?] at hchild
  exact hR _ _ _ _ _ (hl id link child hlink hchild) (Kept.of_core h.core)
    (Instance.SameOrigin.refl child)

theorem EachLinked.record (hR : Lasting R) {i : Instance} (hl : EachLinked R w)
    (hi : w.store.getInstance? i.id = some i) (ho : i.SameOrigin j)
    (hs : w'.store = (w.put j).store) (hk : Kept w.store w'.store) : EachLinked R w' := by
  intro id link child hlink hchild
  rw [hs] at hlink hchild
  obtain ⟨child₀, hchild₀, hsame⟩ := origin_of_put hi ho hchild
  exact hR _ _ _ _ _ (hl id link child₀ hlink hchild₀) hk hsame

theorem EachLinked.create (hR : Lasting R) {r : StartRequest} {d : Definition}
    (hl : EachLinked R w) (hc : Created names maxLevel w r d j)
    (hk : Kept w.store (w.started j d).store) : EachLinked R (w.started j d) := by
  intro id link child hlink hchild
  rw [World.started_store, World.getInstance?_put] at hchild
  split at hchild
  · next he =>
    have hlink' : w.store.getLink? j.id = some link := he ▸ hlink
    rw [hc.unlinked] at hlink'
    cases hlink'
  · exact hR _ _ _ _ _ (hl id link child hlink hchild) hk (Instance.SameOrigin.refl child)

theorem EachLinked.link (hR : Lasting R) (hl : EachLinked R w)
    (hnew : ∀ child, w.store.getInstance? l.childId = some child → R w.store child l)
    (hk : Kept w.store (w.link l).store) : EachLinked R (w.link l) := by
  intro id link child hlink hchild
  have hstored : w.store.getInstance? id = some child := hchild
  rw [World.getLink?_link] at hlink
  split at hlink
  · next he =>
    cases hlink
    exact hR _ _ _ _ _ (hnew child (he ▸ hstored)) hk (Instance.SameOrigin.refl child)
  · exact hR _ _ _ _ _ (hl id link child hlink hstored) hk (Instance.SameOrigin.refl child)

/-- A lasting relation of children and links is kept by moves, if each new link has it. -/
theorem Move.eachLinked (hR : Lasting R) (h : Move names maxLevel s s') (hl : EachLinked R s.world)
    (hnew : ∀ f fs w p l child, s = ⟨f :: fs, w⟩ → w.store.getInstance? f.instanceId = some p →
      p.id = f.instanceId → Links (f :: fs) f.definition w p l →
      w.store.getInstance? l.childId = some child → R w.store child l) :
    EachLinked R s'.world := by
  have hkept := h.writes.kept
  cases h with
  | quiet h => exact hl.quiet hR h
  | create _ _ _ _ hcreated => exact hl.create hR hcreated hkept
  | link hp hid hlinks =>
    exact hl.link hR (fun child => hnew _ _ _ _ _ child rfl hp hid hlinks) hkept
  | advance hi hid _ h now =>
    exact hl.record hR (stored_of_frame hi hid) (h.sameOrigin.written now) rfl hkept
  | halt hi hid _ h now =>
    exact hl.record hR (stored_of_frame hi hid) (h.sameOrigin.written now) rfl hkept

theorem Opening.eachLinked (hR : Lasting R) (h : Opening names maxLevel act w s)
    (hl : EachLinked R w) : EachLinked R s.world := by
  have hkept := h.writes.kept
  rcases h.creates_or_rewrites with ⟨r, d, i, _, hcreated, rfl⟩ | ⟨i, j, hi, _, hsame, hs, _⟩
  · exact hl.create hR hcreated hkept
  · exact hl.record hR hi hsame hs hkept

end

/-- a child that was started by a node of the innermost walk is joined to it -/
theorem Links.joined {fs : List Frame} {d : Definition} {p : Instance} (h : Links fs d w p l)
    (hk : w.store.Keyed) (hp : w.store.getInstance? p.id = some p)
    (hd : definitionOf? w.store p = some d) (hc : w.store.getInstance? l.childId = some child) :
    Joined w.store child l := by
  obtain ⟨child', hchild', hparent, hlevel⟩ := h.child
  cases Option.some.inj (hchild'.symm.trans hc)
  obtain ⟨n, hn, _⟩ := h.node
  refine ⟨(hk _ _ hc).symm, h.level.trans hlevel.symm, ?_, p, d, n, ?_, hlevel, hd, hn⟩
  · rw [hparent, h.parent]
  · rw [h.parent]
    exact hp

theorem Move.linked (h : Move names maxLevel s s') (hc : Consistent s) : Linked s'.world := by
  refine h.eachLinked Joined.lasting hc.linked fun f fs w p l child he hp hid hl hchild => ?_
  subst he
  obtain ⟨i, hi, hd⟩ := hc.framed f List.mem_cons_self
  cases Option.some.inj (hi.symm.trans hp)
  exact hl.joined hc.keyed (stored_of_frame hp hid) hd hchild

/-! ## frames -/

/-- a new instance is walked through the definition that its start has selected -/
theorem Framed.push {fs : List Frame} {r : StartRequest} {d : Definition} (hf : Framed ⟨fs, w⟩)
    (hfiled : w.store.Filed)
    (hc : Created names maxLevel w r d j) (hk : Kept w.store (w.started j d).store) :
    Framed ⟨⟨j.id, d⟩ :: fs, w.started j d⟩ := by
  intro f hmem
  rcases List.mem_cons.mp hmem with rfl | hmem
  · obtain ⟨pinned, now, hd, he⟩ := hc.definition
    refine ⟨j, World.getInstance?_put_self rfl, ?_⟩
    rw [hk.definitionOf?]
    exact hfiled.definitionOf?_of_requested hd (congrArg Instance.workflowId he)
      (congrArg Instance.workflowVersion he)
  · exact hf.kept hk f hmem

theorem Framed.of_subset {fs fs' : List Frame} (hf : Framed ⟨fs, w⟩) (h : ∀ f ∈ fs', f ∈ fs) :
    Framed ⟨fs', w⟩ :=
  fun f hmem => hf f (h f hmem)

theorem Move.framed (h : Move names maxLevel s s') (hc : Consistent s) : Framed s' := by
  have hkept := h.writes.kept
  cases h with
  | quiet _ => exact hc.framed.kept hkept
  | create _ _ _ _ hcreated => exact hc.framed.push hc.filed hcreated hkept
  | link _ _ _ => exact hc.framed.kept hkept
  | advance _ _ _ _ _ => exact hc.framed.kept hkept
  | halt _ _ _ _ _ => exact (hc.framed.kept hkept).of_subset fun _ hf => List.mem_cons_of_mem _ hf

theorem Move.consistent (h : Move names maxLevel s s') (hc : Consistent s) : Consistent s' :=
  ⟨h.writes.kept.filed hc.filed, h.writes.keyed hc.keyed, h.framed hc, h.linked hc⟩

/-- **Moves keep links and definitions as they should be.** -/
theorem Moves.consistent (h : Moves names maxLevel s s') (hc : Consistent s) : Consistent s' := by
  induction h with
  | refl => exact hc
  | tail _ hm ih => exact hm.consistent ih

/-! ## openings -/

/-- an instance that goes on is walked through its definition -/
theorem Framed.single {d : Definition} {i : Instance} (hi : w.store.getInstance? i.id = some i)
    (hd : definitionOf? w.store i = some d) (hk : Kept w.store w'.store) :
    Framed ⟨[⟨i.id, d⟩], w'⟩ := by
  intro f hmem
  rw [List.mem_singleton.mp hmem]
  obtain ⟨k, hk, _, hdk⟩ := hk.definition hi hd
  exact ⟨k, hk, hdk⟩

theorem Framed.nil : Framed ⟨[], w⟩ := fun _ hf => nomatch hf

theorem Opening.consistent (h : Opening names maxLevel act w s) (hc : Consistent ⟨[], w⟩) :
    Consistent s := by
  have hkept := h.writes.kept
  refine ⟨hkept.filed hc.filed, h.writes.keyed hc.keyed, ?_, ?_⟩
  · cases h with
    | start hcreated => exact Framed.nil.push hc.filed hcreated hkept
    | resume data now hi _ hd _ => exact Framed.single hi hd hkept
    | wake now h _ _ => exact Framed.single h.stored h.definition hkept
    | note => exact Framed.nil
    | failWith => exact Framed.nil
    | pause => exact Framed.nil
    | cancel => exact Framed.nil
  · exact h.eachLinked Joined.lasting hc.linked

end Engine
end Workflows
