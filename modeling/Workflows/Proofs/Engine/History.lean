import Workflows.Proofs.Engine.Rewrite

/-!
# Histories

* `Instance.Extends`   a record with the log and the children of another one, and more of them
* `Instance.Grown`     a record that was written later, if it is not the same

Main statement: whatever operations do, the record of an instance has grown (`history_grows`).
-/

namespace Workflows

theorem Dict.contains_insert {α : Type} {d : Dict α} {key : String} (h : Dict.contains d key = true)
    (other : String) (value : α) : Dict.contains (Dict.insert d other value) key = true := by
  unfold Dict.contains at h ⊢
  by_cases he : key = other
  · rw [he, Dict.get?_insert_self]
    rfl
  · rw [Dict.get?_insert_of_ne d value he]
    exact h

namespace Instance

structure Extends (i j : Instance) : Prop where
  origin : i.SameOrigin j
  log : i.log <+: j.log
  children : i.children <+: j.children
  nodes : ∀ nodeId, Dict.contains i.nodeStatuses nodeId = true →
    Dict.contains j.nodeStatuses nodeId = true

structure Grown (i j : Instance) : Prop where
  content : i.Extends j
  version : j ≠ i → i.version < j.version

namespace Extends
variable {i j k : Instance}

theorem refl (i : Instance) : Extends i i :=
  ⟨SameOrigin.refl i, List.prefix_refl _, List.prefix_refl _, fun _ h => h⟩

theorem trans (h : Extends i j) (h' : Extends j k) : Extends i k :=
  ⟨h.origin.trans h'.origin, h.log.trans h'.log, h.children.trans h'.children,
    fun nodeId hn => h'.nodes nodeId (h.nodes nodeId hn)⟩

/-- another state, and what it brings with it -/
theorem of_content (ho : i.SameOrigin j) (hl : j.log = i.log) (hc : j.children = i.children)
    (hn : j.nodeStatuses = i.nodeStatuses) : Extends i j := by
  refine ⟨ho, ?_, ?_, ?_⟩
  · rw [hl]
  · rw [hc]
  · rw [hn]
    exact fun _ h => h

theorem written (h : Extends i j) (now : Instant) : Extends i (j.written now) :=
  ⟨h.origin.written now, h.log, h.children, h.nodes⟩

/-- a node has a new status -/
theorem mark (h : Extends i j) (nodeId : String) (status : NodeStatus) :
    Extends i { j with nodeStatuses := Dict.insert j.nodeStatuses nodeId status } :=
  ⟨h.origin.trans ⟨rfl, rfl, rfl, rfl, rfl, rfl, rfl⟩, h.log, h.children,
    fun other hn => Dict.contains_insert (h.nodes other hn) nodeId status⟩

theorem record (i : Instance) (n : Node) (o : Outcome) (startedAt completedAt : Instant) :
    Extends i (i.record n o startedAt completedAt) :=
  ⟨⟨rfl, rfl, rfl, rfl, rfl, rfl, rfl⟩, List.prefix_append _ _, List.prefix_refl _,
    fun _ hn => Dict.contains_insert hn n.id o.status⟩

theorem rememberChild (i child : Instance) (nodeId : String) :
    Extends i (i.rememberChild child nodeId) := by
  unfold Instance.rememberChild
  split
  · exact refl i
  · exact ⟨⟨rfl, rfl, rfl, rfl, rfl, rfl, rfl⟩, List.prefix_refl _, List.prefix_append _ _,
      fun _ hn => hn⟩

end Extends

namespace Grown
variable {i j k : Instance}

theorem refl (i : Instance) : Grown i i := ⟨Extends.refl i, fun h => absurd rfl h⟩

theorem trans (h : Grown i j) (h' : Grown j k) : Grown i k := by
  refine ⟨h.content.trans h'.content, fun hne => ?_⟩
  by_cases hk : k = j
  · subst hk
    exact h.version hne
  · have hle : i.version ≤ j.version := by
      by_cases hj : j = i
      · rw [hj]
      · exact Nat.le_of_lt (h.version hj)
    exact Nat.lt_of_le_of_lt hle (h'.version hk)

end Grown
end Instance

namespace Engine
variable {names : Nat → String} {maxLevel : Nat} {env : Env} {w w' : World} {st : Store}
  {d : Definition} {i j : Instance} {id : String}

theorem extends_withOutputs (i child : Instance) (link : ChildLink) :
    i.Extends (withOutputs i child link) := by
  have htaken := (Instance.Extends.rememberChild i child link.parentNodeId).mark
    link.parentNodeId .completed
  exact htaken.trans (.of_content ⟨rfl, rfl, rfl, rfl, rfl, rfl, rfl⟩ rfl rfl rfl)

theorem extends_failedWith (i child : Instance) (link : ChildLink) (now : Instant) :
    i.Extends (failedWith i child link now) :=
  (Instance.Extends.rememberChild i child link.parentNodeId).trans
    (.of_content ⟨rfl, rfl, rfl, rfl, rfl, rfl, rfl⟩ rfl rfl rfl)

theorem extends_goingOn (i : Instance) (nodeId : String) (now : Instant) :
    i.Extends (goingOn i nodeId now) := by
  have hrunning : i.Extends (i.setStatus .running now) :=
    .of_content ⟨rfl, rfl, rfl, rfl, rfl, rfl, rfl⟩ rfl rfl rfl
  exact hrunning.mark nodeId .completed

theorem extends_withData (i : Instance) (nodeId : String) (data : Option Json) :
    i.Extends (withData i nodeId data) := by
  cases data with
  | none => exact .refl i
  | some v => exact .of_content ⟨rfl, rfl, rfl, rfl, rfl, rfl, rfl⟩ rfl rfl rfl

theorem Advance.extends (h : Advance st d i j) : i.Extends j := by
  cases h with
  | @record n o vars t t' _ =>
    have hat : i.Extends { i with currentNodeId := some n.id, vars := vars } :=
      .of_content ⟨rfl, rfl, rfl, rfl, rfl, rfl, rfl⟩ rfl rfl rfl
    exact hat.trans (.record _ n o t t')
  | @takeOver child link => exact extends_withOutputs i child link

theorem Halt.extends (h : Halt st i j) : i.Extends j := by
  cases h with
  | wait | complete | fail => exact .of_content ⟨rfl, rfl, rfl, rfl, rfl, rfl, rfl⟩ rfl rfl rfl
  | @failWith child link _ _ now => exact extends_failedWith i child link now

theorem Rewrite.extends (h : Rewrite st i j) : i.Extends j := by
  cases h with
  | advance _ h => exact h.extends
  | halt _ h => exact h.extends
  | resume nodeId data now =>
    exact (extends_withData i nodeId data).trans (extends_goingOn _ nodeId now)
  | @wake _ child link now =>
    exact (extends_withOutputs i child link).trans (extends_goingOn _ link.parentNodeId now)
  | @note _ child link =>
    exact (extends_withOutputs i child link).trans
      (.of_content ⟨rfl, rfl, rfl, rfl, rfl, rfl, rfl⟩ rfl rfl rfl)
  | @failWith _ child link now => exact extends_failedWith i child link now
  | hold | cancel => exact .of_content ⟨rfl, rfl, rfl, rfl, rfl, rfl, rfl⟩ rfl rfl rfl
  | step n o vars t t' =>
    have hat : i.Extends { i with currentNodeId := some n.id, vars := vars } :=
      .of_content ⟨rfl, rfl, rfl, rfl, rfl, rfl, rfl⟩ rfl rfl rfl
    exact hat.trans (.record _ n o t t')

/-- a record is rewritten from the version that is stored -/
theorem Rewrite.version (h : Rewrite st i j) : j.version = i.version := by
  cases h with
  | advance _ h =>
    cases h with
    | record => rfl
    | @takeOver child link => exact rememberChild_version i child link.parentNodeId
  | halt _ h =>
    cases h with
    | wait | complete | fail => rfl
    | @failWith child link => exact rememberChild_version i child link.parentNodeId
  | resume nodeId data now => exact withData_version i nodeId data
  | @wake _ child link | @note _ child link | @failWith _ child link =>
    exact rememberChild_version i child link.parentNodeId
  | hold | cancel | step => rfl

theorem Rewrite.grown (h : Rewrite st i j) (now : Instant) : i.Grown (j.written now) := by
  refine ⟨h.extends.written now, fun _ => ?_⟩
  show i.version < j.version + 1
  rw [h.version]
  exact Nat.lt_succ_self _

theorem Writing.grown (h : Writing names maxLevel w w') (hi : w.store.getInstance? id = some i) :
    ∃ j, w'.store.getInstance? id = some j ∧ i.Grown j := by
  have hsame : w'.store.getInstance? id = some i →
      ∃ j, w'.store.getInstance? id = some j ∧ i.Grown j := fun h => ⟨i, h, .refl i⟩
  cases h with
  | quiet hq => exact hsame ((hq.getInstance? id).trans hi)
  | create hc => exact hsame (Has.started hi hc)
  | link => exact hsame hi
  | @rewrite k j _ hk h now hs =>
    by_cases he : id = k.id
    · subst he
      cases Option.some.inj (hk.symm.trans hi)
      refine ⟨j.written now, ?_, h.grown now⟩
      rw [hs]
      exact World.getInstance?_put_self h.sameOrigin.id
    · refine hsame ?_
      rw [hs]
      exact Has.put_of_ne hi fun he' => he (he'.trans h.sameOrigin.id)

theorem Writings.grown (h : Writings names maxLevel w w')
    (hi : w.store.getInstance? id = some i) :
    ∃ j, w'.store.getInstance? id = some j ∧ i.Grown j := by
  induction h with
  | refl => exact ⟨i, hi, .refl i⟩
  | tail _ hwriting ih =>
    obtain ⟨j, hj, hij⟩ := ih
    obtain ⟨k, hk, hjk⟩ := hwriting.grown hj
    exact ⟨k, hk, hij.trans hjk⟩

/-- **History only grows.**  Whatever is done to an instance, it is still stored, with its origin,
its log, its children and the nodes that it has met, and with a later version if it has changed. -/
theorem history_grows (env : Env) (w : World) (h : Reached env w) (more : List Call) (id : String)
    (i : Instance) (hi : w.store.getInstance? id = some i) :
    ∃ j, (after env w more).store.getInstance? id = some j ∧ i.Grown j := by
  refine after_induct (P := fun v => ∃ j, v.store.getInstance? id = some j ∧ i.Grown j) more
    h.orderly ⟨i, hi, .refl i⟩ ?_
  rintro v v' op result _ hp ⟨j, hj, hij⟩
  obtain ⟨k, hk, hjk⟩ := hp.writings.grown hj
  exact ⟨k, hk, hij.trans hjk⟩

/-- a waiting parent, and its record when it has failed with its child -/
theorem history_grows_failed :
    ∃ i j, (after Sample.env Sample.world Sample.calls).store.getInstance? "i" = some i ∧
      (after Sample.env (after Sample.env Sample.world Sample.calls)
        [⟨⟨1, 0⟩, .cancel "ii"⟩]).store.getInstance? "i" = some j ∧
      i.Grown j ∧ i.version < j.version := by
  have hreached : Reached Sample.env (after Sample.env Sample.world Sample.calls) :=
    (Reached.empty rfl Sample.fresh).after _
  have hbefore : ((after Sample.env Sample.world Sample.calls).store.getInstance? "i").map
      (·.status) = some .waiting := by
    decide +kernel
  have hafter : ((after Sample.env (after Sample.env Sample.world Sample.calls)
      [⟨⟨1, 0⟩, .cancel "ii"⟩]).store.getInstance? "i").map (·.status) = some .failed := by
    decide +kernel
  obtain ⟨i, hi, hs⟩ := Option.map_eq_some_iff.mp hbefore
  obtain ⟨j, hj, hgrown⟩ :=
    history_grows Sample.env _ hreached [⟨⟨1, 0⟩, .cancel "ii"⟩] "i" i hi
  rw [hj] at hafter
  refine ⟨i, j, hi, hj, hgrown, hgrown.version ?_⟩
  rintro rfl
  rw [Option.map_some, hs] at hafter
  cases hafter

end Engine
end Workflows
