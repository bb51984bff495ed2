import Workflows.Proofs.Store.Children
import Workflows.Subprocess.Tree

/-!
# What a tree shows

A tree is made from the root down, by one search for each of its nodes, until the depth is used up.  So it ends
whatever is stored, and an instance that is above itself is shown again below itself.  Without circles every
instance has one place.

* `ExecutionTree.nodes`   the nodes of a tree, each with its distance from the root
* `ExecutionTree.places`  the instances of a tree, each with its distance from the root
* `Store.Below`           a stored instance and the number of parents between it and another one
* `Store.Shows`           a tree shows what is below an instance, down to some depth

Main statements: the nodes of a tree are the trees of what is below its root (`mem_nodes_treeOf`), each instance
once (`nodes_treeOf_nodup`).
-/

namespace Workflows

/-! ## nodes -/

namespace ExecutionTree

def startedAt : ExecutionTree → Instant
  | .node _ _ _ _ t _ _ _ _ _ => t

mutual
/-- the nodes of a tree, each with its distance from the root, if the tree is at some distance itself -/
def nodes (distance : Nat) : ExecutionTree → List (Nat × ExecutionTree)
  | .node id workflowId status level startedAt completedAt seconds hasError error cs =>
    (distance, .node id workflowId status level startedAt completedAt seconds hasError error cs) ::
      nodesAll (distance + 1) cs

def nodesAll (distance : Nat) : List ExecutionTree → List (Nat × ExecutionTree)
  | [] => []
  | t :: ts => nodes distance t ++ nodesAll distance ts
end

/-- the instances of a tree, each with its distance from the root -/
def places (t : ExecutionTree) : List (Nat × String) := (t.nodes 0).map fun e => (e.1, e.2.instanceId)

theorem nodesAll_eq (distance : Nat) (ts : List ExecutionTree) :
    nodesAll distance ts = ts.flatMap (nodes distance) := by
  induction ts with
  | nil => rfl
  | cons t ts ih => rw [nodesAll, ih, List.flatMap_cons]

theorem nodes_eq (distance : Nat) (t : ExecutionTree) :
    t.nodes distance = (distance, t) :: t.children.flatMap (nodes (distance + 1)) := by
  cases t with
  | node => rw [nodes, nodesAll_eq, children]

end ExecutionTree

namespace Store
variable {s : Store} {now : Instant} {root : String} {i j : Instance} {t : ExecutionTree}

/-! ## the tree of an instance -/

@[simp] theorem instanceId_treeOf (s : Store) (now : Instant) (depth : Nat) (i : Instance) :
    (s.treeOf now depth i).instanceId = i.id := by
  cases depth <;> rfl

@[simp] theorem startedAt_treeOf (s : Store) (now : Instant) (depth : Nat) (i : Instance) :
    (s.treeOf now depth i).startedAt = i.startedAt := by
  cases depth <;> rfl

theorem treeOf_fields (s : Store) (now : Instant) (depth : Nat) (i : Instance) :
    s.treeOf now depth i = .ofInstance i now (s.treeOf now depth i).children := by
  cases depth <;> rfl

theorem children_treeOf_succ (s : Store) (now : Instant) (depth : Nat) (i : Instance) :
    (s.treeOf now (depth + 1) i).children = (s.childrenOf i.id).map (s.treeOf now depth) := rfl

theorem nodes_treeOf_zero (s : Store) (now : Instant) (i : Instance) (distance : Nat) :
    (s.treeOf now 0 i).nodes distance = [(distance, s.treeOf now 0 i)] := by
  rw [ExecutionTree.nodes_eq]
  rfl

theorem nodes_treeOf_succ (s : Store) (now : Instant) (depth : Nat) (i : Instance) (distance : Nat) :
    (s.treeOf now (depth + 1) i).nodes distance = (distance, s.treeOf now (depth + 1) i) ::
      (s.childrenOf i.id).flatMap fun c => (s.treeOf now depth c).nodes (distance + 1) := by
  rw [ExecutionTree.nodes_eq, children_treeOf_succ, List.flatMap_map]

/-- A tree is not deeper than it was asked to be, whatever is stored. -/
theorem nodes_treeOf_within {e : Nat × ExecutionTree} {depth distance : Nat}
    (he : e ∈ (s.treeOf now depth i).nodes distance) : e.1 ≤ distance + depth := by
  induction depth generalizing i distance with
  | zero =>
    rw [nodes_treeOf_zero] at he
    rw [List.mem_singleton.mp he]
    exact Nat.le_refl _
  | succ depth ih =>
    rw [nodes_treeOf_succ] at he
    rcases List.mem_cons.mp he with rfl | he
    · exact Nat.le_add_right _ _
    · obtain ⟨c, _, hc⟩ := List.mem_flatMap.mp he
      have := ih hc
      omega

/-! ## instances below others -/

/-- a stored instance with `k` links of parents between it and another one -/
structure Below (s : Store) (root : String) (k : Nat) (i : Instance) : Prop where
  stored : s.getInstance? i.id = some i
  ancestor : s.ancestor? k i.id = some root

theorem Below.self (hi : s.getInstance? i.id = some i) : s.Below i.id 0 i := ⟨hi, rfl⟩

theorem Below.eq_of_zero (h : s.Below i.id 0 j) (hi : s.getInstance? i.id = some i) : j = i := by
  have hid : j.id = i.id := Option.some.inj h.ancestor
  have hstored := h.stored
  rw [hid, hi] at hstored
  exact (Option.some.inj hstored).symm

/-- Whoever is below a child is below its parent, one link further. -/
theorem below_succ (h : s.Listed) {k : Nat} :
    s.Below root (k + 1) j ↔ ∃ c ∈ s.childrenOf root, s.Below c.id k j := by
  constructor
  · rintro ⟨hj, hroot⟩
    rw [ancestor?_succ] at hroot
    obtain ⟨x, hx, hparent⟩ := Option.bind_eq_some_iff.mp hroot
    obtain ⟨c, hc, hcp⟩ := parentOf?_eq_some.mp hparent
    have hid : c.id = x := h.keyed x c hc
    subst hid
    exact ⟨c, (mem_childrenOf h).mpr ⟨hc, hcp⟩, hj, hx⟩
  · rintro ⟨c, hc, hj, hx⟩
    obtain ⟨hstored, hparent⟩ := (mem_childrenOf h).mp hc
    refine ⟨hj, ?_⟩
    rw [ancestor?_succ, hx]
    exact parentOf?_eq_some.mpr ⟨c, hstored, hparent⟩

/-- **The nodes of a tree are the trees of what is below its root.**  The induction is on the depth that is left. -/
theorem mem_nodes_treeOf (h : s.Listed) (hi : s.getInstance? i.id = some i) {e : Nat × ExecutionTree}
    {depth distance : Nat} : e ∈ (s.treeOf now depth i).nodes distance ↔
      ∃ k j, k ≤ depth ∧ s.Below i.id k j ∧ e = (distance + k, s.treeOf now (depth - k) j) := by
  induction depth generalizing i distance with
  | zero =>
    rw [nodes_treeOf_zero, List.mem_singleton]
    constructor
    · rintro rfl
      exact ⟨0, i, Nat.le_refl 0, .self hi, rfl⟩
    · rintro ⟨k, j, hk, hj, rfl⟩
      cases Nat.le_zero.mp hk
      rw [hj.eq_of_zero hi]
      rfl
  | succ depth ih =>
    rw [nodes_treeOf_succ, List.mem_cons, List.mem_flatMap]
    constructor
    · rintro (rfl | ⟨c, hc, he⟩)
      · exact ⟨0, i, Nat.zero_le _, .self hi, rfl⟩
      · obtain ⟨k, j, hk, hj, rfl⟩ := (ih ((mem_childrenOf h).mp hc).1).mp he
        refine ⟨k + 1, j, Nat.succ_le_succ hk, (below_succ h).mpr ⟨c, hc, hj⟩, ?_⟩
        rw [Nat.succ_sub_succ, Nat.add_assoc, Nat.add_comm 1 k]
    · rintro ⟨k, j, hk, hj, rfl⟩
      cases k with
      | zero =>
        rw [hj.eq_of_zero hi]
        exact .inl rfl
      | succ k =>
        obtain ⟨c, hc, hbelow⟩ := (below_succ h).mp hj
        refine .inr ⟨c, hc, (ih ((mem_childrenOf h).mp hc).1).mpr
          ⟨k, j, Nat.le_of_succ_le_succ hk, hbelow, ?_⟩⟩
        rw [Nat.succ_sub_succ, Nat.add_assoc, Nat.add_comm 1 k]

theorem mem_ids_treeOf (h : s.Listed) (hi : s.getInstance? i.id = some i) {depth distance : Nat} {id : String}
    (hid : id ∈ ((s.treeOf now depth i).nodes distance).map (·.2.instanceId)) :
    ∃ k, s.ancestor? k id = some i.id := by
  obtain ⟨e, he, rfl⟩ := List.mem_map.mp hid
  obtain ⟨k, j, _, hj, rfl⟩ := (mem_nodes_treeOf h hi).mp he
  show ∃ k, s.ancestor? k (s.treeOf now _ j).instanceId = _
  rw [instanceId_treeOf]
  exact ⟨k, hj.ancestor⟩

/-- **Without circles every instance is shown once.** -/
theorem nodes_treeOf_nodup (h : s.Listed) (ha : s.Acyclic) (hi : s.getInstance? i.id = some i)
    (depth distance : Nat) : (((s.treeOf now depth i).nodes distance).map (·.2.instanceId)).Nodup := by
  induction depth generalizing i distance with
  | zero =>
    rw [nodes_treeOf_zero]
    exact List.nodup_singleton _
  | succ depth ih =>
    have hup : ∀ {c : Instance} {id : String}, c ∈ s.childrenOf i.id →
        id ∈ ((s.treeOf now depth c).nodes (distance + 1)).map (·.2.instanceId) →
          ∃ k, s.ancestor? k id = some c.id ∧ s.ancestor? (k + 1) id = some i.id := by
      intro c id hc hid
      obtain ⟨hstored, hparent⟩ := (mem_childrenOf h).mp hc
      obtain ⟨k, hk⟩ := mem_ids_treeOf h hstored hid
      refine ⟨k, hk, ?_⟩
      rw [ancestor?_succ, hk]
      show s.parentOf? c.id = some i.id
      exact parentOf?_eq_some.mpr ⟨c, hstored, hparent⟩
    rw [nodes_treeOf_succ, List.map_cons, List.map_flatMap, instanceId_treeOf, List.nodup_cons]
    constructor
    · -- the root is not below itself
      intro hmem
      obtain ⟨c, hc, hid⟩ := List.mem_flatMap.mp hmem
      obtain ⟨k, _, hk⟩ := hup hc hid
      exact ha.ancestor?_ne_self i.id k hk
    · rw [List.nodup_flatMap]
      constructor
      · intro c hc
        exact ih ((mem_childrenOf h).mp hc).1 _
      · -- what is below two children has both of them as ancestors at one distance
        apply List.Pairwise.imp_of_mem _ (List.pairwise_map.mp (childrenOf_nodup h i.id))
        intro c c' hc hc' hne id hid hid'
        obtain ⟨k, hk, hroot⟩ := hup hc hid
        obtain ⟨k', hk', hroot'⟩ := hup hc' hid'
        have hdistance : k + 1 = k' + 1 := ha.distance_unique hroot hroot'
        have hsame : k = k' := by omega
        rw [← hsame, hk] at hk'
        exact hne (Option.some.inj hk')

/-! ## what is shown -/

/-- A tree shows what is below an instance, down to some depth. -/
structure Shows (s : Store) (now : Instant) (root : String) (depth : Nat) (t : ExecutionTree) : Prop where
  /-- the stored instances below the root, each at its distance -/
  places : ∀ k id, (k, id) ∈ t.places ↔
    k ≤ depth ∧ (s.getInstance? id).isSome ∧ s.ancestor? k id = some root
  once : (t.places.map (·.2)).Nodup
  fields : ∀ e ∈ t.nodes 0, ∃ i, s.getInstance? e.2.instanceId = some i ∧ e.2 = .ofInstance i now e.2.children
  /-- a node stands under its parent, behind those that have started before -/
  parents : ∀ e ∈ t.nodes 0, ∀ c ∈ e.2.children, s.parentOf? c.instanceId = some e.2.instanceId
  siblings : ∀ e ∈ t.nodes 0, e.2.children.Pairwise fun a b => b.startedAt.before a.startedAt = false

theorem mem_places_treeOf (h : s.Listed) (hi : s.getInstance? i.id = some i) {depth k : Nat} {id : String} :
    (k, id) ∈ (s.treeOf now depth i).places ↔
      k ≤ depth ∧ (s.getInstance? id).isSome ∧ s.ancestor? k id = some i.id := by
  rw [ExecutionTree.places, List.mem_map]
  constructor
  · rintro ⟨e, he, hpair⟩
    obtain ⟨m, j, hm, hj, rfl⟩ := (mem_nodes_treeOf h hi).mp he
    obtain ⟨rfl, rfl⟩ := Prod.mk.inj hpair
    rw [Nat.zero_add, instanceId_treeOf, hj.stored]
    exact ⟨hm, rfl, hj.ancestor⟩
  · rintro ⟨hk, hstored, hancestor⟩
    obtain ⟨j, hj⟩ := Option.isSome_iff_exists.mp hstored
    have hid := h.keyed id j hj
    subst hid
    refine ⟨(0 + k, s.treeOf now (depth - k) j),
      (mem_nodes_treeOf h hi).mpr ⟨k, j, hk, ⟨hj, hancestor⟩, rfl⟩, ?_⟩
    rw [Nat.zero_add, instanceId_treeOf]

theorem children_treeOf (h : s.Listed) (depth : Nat) :
    (∀ c ∈ (s.treeOf now depth i).children, s.parentOf? c.instanceId = some i.id) ∧
      (s.treeOf now depth i).children.Pairwise fun a b => b.startedAt.before a.startedAt = false := by
  cases depth with
  | zero => exact ⟨nofun, List.Pairwise.nil⟩
  | succ depth =>
    rw [children_treeOf_succ]
    constructor
    · intro t ht
      obtain ⟨c, hc, rfl⟩ := List.mem_map.mp ht
      obtain ⟨hstored, hparent⟩ := (mem_childrenOf h).mp hc
      rw [instanceId_treeOf]
      exact parentOf?_eq_some.mpr ⟨c, hstored, hparent⟩
    · rw [List.pairwise_map]
      apply (childrenOf_sorted s i.id).imp
      intro a b hab
      rw [startedAt_treeOf, startedAt_treeOf]
      exact hab

theorem treeOf_shows (h : s.Listed) (ha : s.Acyclic) (now : Instant) (hi : s.getInstance? i.id = some i) (depth : Nat) :
    s.Shows now i.id depth (s.treeOf now depth i) where
  places k id := mem_places_treeOf h hi
  once := by
    rw [ExecutionTree.places, List.map_map]
    exact nodes_treeOf_nodup h ha hi depth 0
  fields e he := by
    obtain ⟨k, j, _, hj, rfl⟩ := (mem_nodes_treeOf h hi).mp he
    refine ⟨j, ?_, treeOf_fields s now _ j⟩
    rw [instanceId_treeOf]
    exact hj.stored
  parents e he := by
    obtain ⟨k, j, _, _, rfl⟩ := (mem_nodes_treeOf h hi).mp he
    rw [instanceId_treeOf]
    exact (children_treeOf h _).1
  siblings e he := by
    obtain ⟨k, j, _, _, rfl⟩ := (mem_nodes_treeOf h hi).mp he
    exact (children_treeOf h _).2

/-- If there are no more instances than levels, every descendant is shown. -/
theorem Shows.complete {depth : Nat} (h : s.Shows now root depth t) (ha : s.Acyclic)
    (hroot : (s.getInstance? root).isSome) (hd : s.instances.length ≤ depth) (id : String) :
    id ∈ t.places.map (·.2) ↔ (s.getInstance? id).isSome ∧ ∃ k, s.ancestor? k id = some root := by
  rw [List.mem_map]
  constructor
  · rintro ⟨⟨k, id⟩, hmem, rfl⟩
    obtain ⟨_, hstored, hk⟩ := (h.places k id).mp hmem
    exact ⟨hstored, k, hk⟩
  · rintro ⟨hstored, k, hk⟩
    have hlt : k < s.instances.length := ha.ancestor?_lt_length hroot hk
    have hdepth : k ≤ depth := by omega
    exact ⟨(k, id), (h.places k id).mpr ⟨hdepth, hstored, hk⟩, rfl⟩

end Store
end Workflows
