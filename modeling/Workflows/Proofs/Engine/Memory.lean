import Workflows.Proofs.Engine.History

/-!
# What parents remember of their children

A parent lists the children that were reported to it.  An entry is written once, when the child has
ended, and agrees with the child from then on.

* `Outlasts`      what has ended stays as it has ended, and links stay
* `Recalled`      an entry agrees with a stored child that has ended, and with its link
* `Remembering`   so do all entries of a record, one for each child
* `Attests`        an entry beside the child and the link that it was taken from, field by field

Main statements: the entries of all records that are reached agree (`Reached.remembers`).  Whatever operations
follow, they are still there and still agree (`children_agree`).
-/

namespace Workflows.Engine
variable {names : Nat → String} {maxLevel : Nat} {env : Env} {s s' : Scene} {w w' : World}
  {act : Act} {op : Operation} {result : Except EngineError Unit} {fuel : Nat} {id : String}
  {i j child : Instance} {link : ChildLink} {st st' : Store}

/-! ## what stays -/

structure Outlasts (st st' : Store) : Prop where
  instances : ∀ id i, st.getInstance? id = some i → i.status.isTerminal = true →
    ∃ j, st'.getInstance? id = some j ∧ i.SameOrigin j ∧ SameEnd i j
  links : ∀ id link, st.getLink? id = some link → st'.getLink? id = some link

theorem Outlasts.of_same (hi : ∀ id, st'.getInstance? id = st.getInstance? id)
    (hl : ∀ id, st'.getLink? id = st.getLink? id) : Outlasts st st' :=
  ⟨fun id i h _ => ⟨i, (hi id).trans h, Instance.SameOrigin.refl i, SameEnd.refl i⟩,
    fun id _ h => (hl id).trans h⟩

theorem Outlasts.quiet (h : Quiet w w') : Outlasts w.store w'.store :=
  .of_same h.getInstance? h.getLink?

theorem Outlasts.started {r : StartRequest} {d : Definition} (h : Created names maxLevel w r d j) :
    Outlasts w.store (w.started j d).store :=
  ⟨fun _ i hi _ => ⟨i, Has.started hi h, Instance.SameOrigin.refl i, SameEnd.refl i⟩,
    fun _ _ hl => hl⟩

theorem Outlasts.linked (h : w.store.getLink? link.childId = none) :
    Outlasts w.store (w.link link).store := by
  refine ⟨fun _ i hi _ => ⟨i, hi, Instance.SameOrigin.refl i, SameEnd.refl i⟩, fun id l hl => ?_⟩
  rw [World.getLink?_link, if_neg]
  · exact hl
  · rintro rfl
    rw [h] at hl
    cases hl

/-- a record is written again, and stays as it has ended -/
theorem Outlasts.put (hi : w.store.getInstance? i.id = some i) (ho : i.SameOrigin j)
    (hend : i.status.isTerminal = true → SameEnd i j) : Outlasts w.store (w.put j).store := by
  refine ⟨fun id k hk ht => ?_, fun _ _ hl => hl⟩
  by_cases he : id = j.id
  · rw [he, ho.id] at hk
    cases Option.some.inj (hk.symm.trans hi)
    exact ⟨j, World.getInstance?_put_self he.symm, ho, hend ht⟩
  · exact ⟨k, (World.getInstance?_put_of_ne he).trans hk, Instance.SameOrigin.refl k,
      SameEnd.refl k⟩

/-! ## entries -/

def Recalled (st : Store) (parentId : String) (e : ChildEntry) : Prop :=
  ∃ child link, st.getInstance? e.instanceId = some child ∧ child.status.isTerminal = true ∧
    st.getLink? e.instanceId = some link ∧ link.parentId = parentId ∧
    e = ⟨e.instanceId, child.workflowId, link.parentNodeId, child.status, child.completedAt⟩

structure Remembering (st : Store) (id : String) (i : Instance) : Prop where
  distinct : (i.children.map (·.instanceId)).Nodup
  recalled : ∀ e ∈ i.children, Recalled st id e

def Remembers (w : World) : Prop :=
  ∀ id i, w.store.getInstance? id = some i → Remembering w.store id i

theorem Recalled.outlast {e : ChildEntry} (h : Recalled st id e) (ho : Outlasts st st') :
    Recalled st' id e := by
  obtain ⟨child, link, hchild, ht, hlink, hparent, he⟩ := h
  obtain ⟨child', hchild', hsame, hend⟩ := ho.instances _ _ hchild ht
  refine ⟨child', link, hchild', ?_, ho.links _ _ hlink, hparent, ?_⟩
  · rw [hend.status]
    exact ht
  · rw [hsame.workflowId, hend.status, hend.completedAt]
    exact he

theorem Remembering.outlast (h : Remembering st id i) (ho : Outlasts st st') :
    Remembering st' id i :=
  ⟨h.distinct, fun e he => (h.recalled e he).outlast ho⟩

theorem Remembering.of_children (h : Remembering st id i) (hc : j.children = i.children) :
    Remembering st id j := by
  refine ⟨?_, ?_⟩
  · rw [hc]
    exact h.distinct
  · rw [hc]
    exact h.recalled

theorem Remembering.rememberChild (h : Remembering st id i) (hr : Reports st id child link) :
    Remembering st id (i.rememberChild child link.parentNodeId) := by
  unfold Instance.rememberChild
  split
  · exact h
  · next hnew =>
    refine ⟨?_, fun e he => ?_⟩
    · show ((i.children ++ _).map (·.instanceId)).Nodup
      rw [List.map_append]
      refine List.nodup_append.mpr ⟨h.distinct, List.nodup_singleton _, ?_⟩
      rintro a ha b hb rfl
      obtain ⟨e, he, rfl⟩ := List.mem_map.mp ha
      have hid : e.instanceId = child.id := List.mem_singleton.mp hb
      exact hnew (List.any_eq_true.mpr ⟨e, he, decide_eq_true hid⟩)
    · rcases List.mem_append.mp he with he | he
      · exact h.recalled e he
      · rw [List.mem_singleton.mp he]
        exact ⟨child, link, hr.stored, hr.terminal, hr.linked, hr.parent, rfl⟩

theorem Remembering.withOutputs (h : Remembering st id i) (hr : Reports st id child link) :
    Remembering st id (withOutputs i child link) :=
  (h.rememberChild hr).of_children rfl

theorem Remembering.failedWith (h : Remembering st id i) (hr : Reports st id child link)
    (now : Instant) : Remembering st id (failedWith i child link now) :=
  (h.rememberChild hr).of_children rfl

/-! ## moves -/

theorem Remembers.quiet (hm : Remembers w) (h : Quiet w w') : Remembers w' :=
  fun id i hi => (hm id i ((h.getInstance? id).symm.trans hi)).outlast (.quiet h)

theorem Remembers.put (hm : Remembers w) (hi : w.store.getInstance? i.id = some i)
    (ho : i.SameOrigin j) (hend : i.status.isTerminal = true → SameEnd i j)
    (hj : Remembering w.store i.id j) : Remembers (w.put j) := by
  intro id k hk
  have houtlasts := Outlasts.put hi ho hend
  rw [World.getInstance?_put] at hk
  split at hk
  · next he =>
    cases hk
    rw [he, ho.id]
    exact hj.outlast houtlasts
  · exact (hm id k hk).outlast houtlasts

theorem Remembers.started {r : StartRequest} {d : Definition} (hm : Remembers w)
    (h : Created names maxLevel w r d j) : Remembers (w.started j d) := by
  intro id k hk
  rw [World.started_store, World.getInstance?_put] at hk
  split at hk
  · cases hk
    obtain ⟨_, _, _, he⟩ := h.definition
    have hnone : j.children = [] := by
      rw [he]
      rfl
    refine ⟨?_, ?_⟩
    · rw [hnone]
      exact List.nodup_nil
    · rw [hnone]
      exact fun _ he => nomatch he
  · exact (hm id k hk).outlast (.started h)

theorem Advance.remembering {d : Definition} (h : Advance st d i j)
    (hi : Remembering st i.id i) : Remembering st i.id j := by
  cases h with
  | record => exact hi.of_children rfl
  | takeOver hr => exact hi.withOutputs hr

theorem Halt.remembering (h : Halt st i j) (hi : Remembering st i.id i) :
    Remembering st i.id j := by
  cases h with
  | wait => exact hi.of_children rfl
  | complete => exact hi.of_children rfl
  | fail => exact hi.of_children rfl
  | failWith hr hc now => exact hi.failedWith hr now

theorem sameEnd_of_running (hr : i.status = .running) (ht : i.status.isTerminal = true) :
    SameEnd i j := by
  rw [hr] at ht
  cases ht

theorem Move.remembers (h : Move names maxLevel s s') (hm : Remembers s.world) :
    Remembers s'.world := by
  cases h with
  | quiet hq => exact hm.quiet hq
  | create _ _ _ _ hc => exact hm.started hc
  | link _ _ hl => exact fun id i hi => (hm id i hi).outlast (.linked hl.unlinked)
  | advance hi hid hr h now =>
    have hstored := stored_of_frame hi hid
    exact hm.put hstored (h.sameOrigin.written now) (sameEnd_of_running hr)
      ((h.remembering (hm _ _ hstored)).of_children rfl)
  | halt hi hid hr h now =>
    have hstored := stored_of_frame hi hid
    exact hm.put hstored (h.sameOrigin.written now) (sameEnd_of_running hr)
      ((h.remembering (hm _ _ hstored)).of_children rfl)

/-! ## operations -/

theorem Opening.remembers (h : Opening names maxLevel act w s) (hm : Remembers w) :
    Remembers s.world := by
  have hput : ∀ {i j : Instance}, w.store.getInstance? i.id = some i →
      i.status.isTerminal = false → i.SameOrigin j → Remembering w.store i.id j →
      Remembers (w.put j) :=
    fun hi ha ho hj => hm.put hi ho (fun ht => Bool.noConfusion (ht.symm.trans ha)) hj
  cases h with
  | start hc => exact hm.started hc
  | @resume _ i _ _ data now hi hp =>
    refine hput hi (not_terminal_of_parked hp)
      (((sameOrigin_withData i _ data).trans (sameOrigin_goingOn _ _ now)).written now)
      ((hm _ _ hi).of_children ?_)
    cases data with
    | none => rfl
    | some v => rfl
  | wake now h =>
    exact hput h.stored h.not_terminal
      (((sameOrigin_withOutputs _ _ _).trans (sameOrigin_goingOn _ _ now)).written now)
      (((hm _ _ h.stored).withOutputs h.reports).of_children rfl)
  | note now h =>
    exact hput h.stored h.not_terminal ((sameOrigin_noted _ _ _).written now)
      (((hm _ _ h.stored).withOutputs h.reports).of_children rfl)
  | failWith now h =>
    exact hput h.stored h.not_terminal ((sameOrigin_failedWith _ _ _ now).written now)
      (((hm _ _ h.stored).failedWith h.reports now).of_children rfl)
  | pause now hi ha =>
    exact hput hi ha ((sameOrigin_held _ now).written now) ((hm _ _ hi).of_children rfl)
  | cancel now hi ha =>
    exact hput hi ha ((sameOrigin_setStatus _ _ now).written now) ((hm _ _ hi).of_children rfl)

theorem upkeep_remembers : Upkeep names maxLevel (fun _ => True) Remembers where
  quiet hq hm := hm.quiet hq
  move hmove hm := hmove.remembers hm
  opening ho _ hm := ho.remembers hm
  step {v i} n o vars t t' now hstored hm := by
    -- an instance of any state is recorded, and how it has ended is not
    have hend : SameEnd i ((recordStep i n o vars t t').written now) := ⟨rfl, rfl, rfl, rfl, rfl⟩
    exact hm.put hstored ((sameOrigin_recordStep i n o vars t t').written now) (fun _ => hend)
      ((hm _ _ hstored).of_children rfl)

theorem Performed.remembers (h : Performed names maxLevel w op result w') (hm : Remembers w) :
    Remembers w' :=
  upkeep_remembers.performed h (fun _ _ => trivial) hm

/-- **What instances remember of their children is true**, each child once. -/
theorem Reached.remembers (h : Reached env w) : Remembers w := by
  refine (h.induct (P := Remembers) (fun hw id i hi => ?_) (fun _ hp hm => hp.remembers hm)
    fun hi hl hm id i hstored => ?_).2
  · exact absurd hi (not_stored_of_empty hw)
  · rw [getInstance?_of_instances hi] at hstored
    exact (hm id i hstored).outlast (.of_same (getInstance?_of_instances hi) (getLink?_of_links hl))

/-! ## entries and children -/

/-- An entry of an instance has the fields of a stored child that has ended, and of its link. -/
structure Attests (st : Store) (i : Instance) (e : ChildEntry) (child : Instance)
    (link : ChildLink) : Prop where
  stored : st.getInstance? e.instanceId = some child
  childId : child.id = e.instanceId
  linked : st.getLink? e.instanceId = some link
  parentId : link.parentId = i.id
  nodeId : link.parentNodeId = e.nodeId
  workflowId : child.workflowId = e.workflowId
  status : child.status = e.status
  terminal : e.status.isTerminal = true
  completedAt : child.completedAt = e.completedAt

theorem Recalled.attests {e : ChildEntry} (h : Recalled st i.id e) (hk : st.Keyed) :
    ∃ child link, Attests st i e child link := by
  obtain ⟨child, link, hchild, ht, hlink, hparent, he⟩ := h
  have hworkflow : child.workflowId = e.workflowId := by rw [he]
  have hnode : link.parentNodeId = e.nodeId := by rw [he]
  have hstatus : child.status = e.status := by rw [he]
  have hcompleted : child.completedAt = e.completedAt := by rw [he]
  refine ⟨child, link, hchild, hk _ _ hchild, hlink, hparent, hnode, hworkflow, hstatus, ?_,
    hcompleted⟩
  rw [← hstatus]
  exact ht

/-- one entry for each child, and all of them agree -/
def Accounts (st : Store) (i : Instance) : Prop :=
  (i.children.map (·.instanceId)).Nodup ∧ ∀ e ∈ i.children, ∃ child link, Attests st i e child link

theorem Reached.accounts (h : Reached env w) (hi : w.store.getInstance? id = some i) :
    Accounts w.store i := by
  obtain ⟨hdistinct, hrecalled⟩ := h.remembers id i hi
  have hid := h.orderly.keyed id i hi
  subst hid
  exact ⟨hdistinct, fun e he => (hrecalled e he).attests h.orderly.keyed⟩

/-- **An instance lists each child once, as it has ended.**  Every entry has the status, the end and the
workflow of a stored child, and the node of its link to the instance.  Whatever operations follow, the entries
are still listed, and the list is still right. -/
theorem children_agree (env : Env) (w : World) (h : Reached env w) (more : List Call) :
    (∀ id i, w.store.getInstance? id = some i → Accounts w.store i ∧
      ∃ j, (after env w more).store.getInstance? id = some j ∧ i.children <+: j.children) ∧
    ∀ id j, (after env w more).store.getInstance? id = some j →
      Accounts (after env w more).store j := by
  constructor
  · intro id i hi
    refine ⟨h.accounts hi, ?_⟩
    refine after_induct (P := fun v => ∃ j, v.store.getInstance? id = some j ∧
      i.children <+: j.children) more h.orderly ⟨i, hi, List.prefix_refl _⟩ ?_
    rintro v v' op result _ hp ⟨j, hj, hij⟩
    obtain ⟨k, hk, hjk⟩ := hp.writings.grown hj
    exact ⟨k, hk, hij.trans hjk.content.children⟩
  · intro id j hj
    exact (h.after more).accounts hj

/-- a parent that lists its cancelled child -/
theorem children_agree_cancelled : Reached Sample.env (after Sample.env Sample.world Sample.calls) ∧
    ∃ j e child link, (after Sample.env (after Sample.env Sample.world Sample.calls)
        [⟨⟨1, 0⟩, .cancel "ii"⟩]).store.getInstance? "i" = some j ∧
      j.children = [e] ∧ e.instanceId = "ii" ∧ e.status = .cancelled ∧
      Attests (after Sample.env (after Sample.env Sample.world Sample.calls)
        [⟨⟨1, 0⟩, .cancel "ii"⟩]).store j e child link := by
  have hreached : Reached Sample.env (after Sample.env Sample.world Sample.calls) :=
    (Reached.empty rfl Sample.fresh).after _
  have hlisted : ((after Sample.env (after Sample.env Sample.world Sample.calls)
      [⟨⟨1, 0⟩, .cancel "ii"⟩]).store.getInstance? "i").map (fun j => j.children.map
        fun e => (e.instanceId, e.status)) = some [("ii", .cancelled)] := by
    decide +kernel
  obtain ⟨j, hj, he⟩ := Option.map_eq_some_iff.mp hlisted
  obtain ⟨e, hchildren, hpair⟩ := List.map_eq_singleton_iff.mp he
  obtain ⟨hid, hstatus⟩ := Prod.mk.inj hpair
  have haccounts := (children_agree Sample.env _ hreached [⟨⟨1, 0⟩, .cancel "ii"⟩]).2 "i" j hj
  have hmem : e ∈ j.children := by
    rw [hchildren]
    exact List.mem_singleton_self e
  obtain ⟨child, link, hattests⟩ := haccounts.2 e hmem
  exact ⟨hreached, j, e, child, link, hj, hchildren, hid, hstatus, hattests⟩

end Workflows.Engine
