import Mathlib.Data.Finset.Card
import Mathlib.Logic.Relation
import Workflows.Definition.Routing

/-!
# Reachable nodes

The search for reachable nodes adds in each round the nodes that an edge joins to one that was
found before.

* `Joins`        an edge from one node to another, by their ids
* `unreached`    the ids of the nodes that were not found yet
* `Wellformed`   a start node, edges between nodes, and known kinds
* `Runnable`     a node of a known kind that is not listed as unreachable

Main statements: the search finds the ends of all paths from the start node and nothing else
(`mem_reachable_iff`), and what it does not find is listed (`mem_unreachable_iff`).  In a wellformed
definition a walk gets from nodes that can be run to others (`Wellformed.next`).
-/

namespace Workflows.Definition
variable {d : Definition} {id source target : String} {reached : List String}

/-- an edge from one node to another -/
def Joins (d : Definition) (source target : String) : Prop :=
  ∃ e ∈ d.edges, e.source = source ∧ e.target = target ∧ d.hasNode source = true ∧
    d.hasNode target = true

theorem hasNode_iff : d.hasNode id = true ↔ id ∈ d.nodes.map (·.id) := by
  simp only [hasNode, List.any_eq_true, decide_eq_true_iff, List.mem_map]

theorem hasNode_iff_findNode? : d.hasNode id = true ↔ ∃ n, d.findNode? id = some n := by
  rw [← Option.isSome_iff_exists, findNode?, List.find?_isSome, hasNode, List.any_eq_true]

theorem mem_successors :
    target ∈ d.successors reached ↔ ∃ source ∈ reached, d.Joins source target := by
  simp only [successors, List.mem_map, List.mem_filter, Bool.and_eq_true, List.contains_iff_mem]
  constructor
  · rintro ⟨e, ⟨he, ⟨hs, hsource⟩, htarget⟩, rfl⟩
    exact ⟨e.source, hs, e, he, rfl, rfl, hsource, htarget⟩
  · rintro ⟨source, hs, e, he, rfl, rfl, hsource, htarget⟩
    exact ⟨e, ⟨he, ⟨hs, hsource⟩, htarget⟩, rfl⟩

/-- what a round of the search adds -/
theorem mem_round :
    id ∈ ((d.successors reached).filter fun id => !reached.contains id).eraseDups ↔
      id ∈ d.successors reached ∧ id ∉ reached := by
  rw [List.mem_eraseDups, List.mem_filter]
  simp

/-! ## the search -/

/-- the ids of the nodes that were not found yet -/
def unreached (d : Definition) (reached : List String) : Finset String :=
  (d.nodes.map (·.id)).toFinset \ reached.toFinset

theorem mem_unreached : id ∈ d.unreached reached ↔ d.hasNode id = true ∧ id ∉ reached := by
  rw [unreached, Finset.mem_sdiff, List.mem_toFinset, List.mem_toFinset, hasNode_iff]

/-- a node that was found is not to be found any more -/
theorem card_unreached_append {found : List String} (hid : id ∈ found)
    (hnode : d.hasNode id = true) (hnot : id ∉ reached) :
    (d.unreached (reached ++ found)).card < (d.unreached reached).card := by
  refine Finset.card_lt_card (Finset.ssubset_iff_subset_ne.mpr ⟨fun x hx => ?_, fun he => ?_⟩)
  · obtain ⟨hx, hxn⟩ := mem_unreached.mp hx
    exact mem_unreached.mpr ⟨hx, fun hmem => hxn (List.mem_append_left _ hmem)⟩
  · have hmem := mem_unreached.mpr ⟨hnode, hnot⟩
    rw [← he] at hmem
    exact (mem_unreached.mp hmem).2 (List.mem_append_right _ hid)

theorem mem_spread_of_mem (steps : Nat) (h : id ∈ reached) : id ∈ d.spread steps reached := by
  induction steps generalizing reached with
  | zero => exact h
  | succ steps ih =>
    unfold spread
    dsimp only
    split
    · exact h
    · exact ih (List.mem_append_left _ h)

/-- What holds of what was found, and along edges, holds of all that is found. -/
theorem spread_induct {P : String → Prop} (steps : Nat) (h : ∀ id ∈ reached, P id)
    (hstep : ∀ source target, P source → d.Joins source target → P target) :
    ∀ id ∈ d.spread steps reached, P id := by
  induction steps generalizing reached with
  | zero => exact h
  | succ steps ih =>
    unfold spread
    dsimp only
    split
    · exact h
    · refine ih fun id hid => ?_
      rcases List.mem_append.mp hid with hid | hid
      · exact h id hid
      · obtain ⟨source, hsource, hjoins⟩ := mem_successors.mp (mem_round.mp hid).1
        exact hstep source id (h source hsource) hjoins

/-- With as many steps as there are nodes to be found, the search leaves none out.  The induction is
on the steps: a round that is not the last one finds another node. -/
theorem spread_closed (steps : Nat) (h : (d.unreached reached).card ≤ steps)
    (hs : source ∈ d.spread steps reached) (hj : d.Joins source target) :
    target ∈ d.spread steps reached := by
  induction steps generalizing reached with
  | zero =>
    have hnone : d.unreached reached = ∅ := Finset.card_eq_zero.mp (Nat.le_zero.mp h)
    by_contra hnot
    have hmem : target ∈ d.unreached reached := by
      obtain ⟨_, _, _, _, _, htarget⟩ := hj
      exact mem_unreached.mpr ⟨htarget, hnot⟩
    rw [hnone] at hmem
    cases hmem
  | succ steps ih =>
    unfold spread at hs ⊢
    dsimp only at hs ⊢
    split at hs
    · next hlast =>
      rw [if_pos hlast]
      by_contra hnot
      have hmem := mem_round.mpr ⟨mem_successors.mpr ⟨source, hs, hj⟩, hnot⟩
      rw [List.isEmpty_iff.mp hlast] at hmem
      cases hmem
    · next hfound =>
      rw [if_neg hfound]
      refine ih ?_ hs
      obtain ⟨id, hid⟩ := List.exists_mem_of_ne_nil _ fun he => hfound (List.isEmpty_iff.mpr he)
      obtain ⟨hsuccessor, hnot⟩ := mem_round.mp hid
      have hnode : d.hasNode id = true := by
        obtain ⟨_, _, _, _, _, _, _, hnode⟩ := mem_successors.mp hsuccessor
        exact hnode
      have hless := card_unreached_append hid hnode hnot
      omega

/-! ## what is reachable -/

theorem unreached_card_le (d : Definition) (reached : List String) :
    (d.unreached reached).card ≤ d.nodes.length := by
  calc (d.unreached reached).card ≤ (d.nodes.map (·.id)).toFinset.card :=
        Finset.card_le_card Finset.sdiff_subset
    _ ≤ (d.nodes.map (·.id)).length := List.toFinset_card_le _
    _ = d.nodes.length := List.length_map _

/-- **The search finds the ends of all paths from the start node, and nothing else.** -/
theorem mem_reachable_iff : id ∈ d.reachable ↔
    ∃ s, d.startNode? = some s ∧ Relation.ReflTransGen d.Joins s.id id := by
  unfold reachable
  constructor
  · intro h
    cases hs : d.startNode? with
    | none =>
      rw [hs] at h
      cases h
    | some s =>
      rw [hs] at h
      refine ⟨s, rfl, spread_induct d.nodes.length (fun id hid => ?_)
        (fun _ _ hsource hj => hsource.tail hj) id h⟩
      rw [List.mem_singleton.mp hid]
  · rintro ⟨s, hs, hpath⟩
    rw [hs]
    induction hpath with
    | refl => exact mem_spread_of_mem _ (List.mem_singleton_self _)
    | tail _ hj ih => exact spread_closed _ (d.unreached_card_le _) ih hj

/-- **What is not found is listed**, if there is a start node. -/
theorem mem_unreachable_iff : id ∈ d.unreachable ↔
    d.startNode?.isSome = true ∧ d.hasNode id = true ∧ id ∉ d.reachable := by
  unfold unreachable
  cases d.startNode? with
  | none => simp
  | some s =>
    simp only [List.mem_map, List.mem_filter, hasNode_iff]
    constructor
    · rintro ⟨n, ⟨hn, hnot⟩, rfl⟩
      exact ⟨rfl, ⟨n, hn, rfl⟩, by simpa using hnot⟩
    · rintro ⟨_, ⟨n, hn, rfl⟩, hnot⟩
      exact ⟨n, ⟨hn, by simpa using hnot⟩, rfl⟩

/-! ## routing -/

/-- a walk follows edges -/
theorem edge_of_mem_nextNodes {n : Node} {route : Option String} (h : id ∈ d.nextNodes n route) :
    ∃ e ∈ d.edges, e.source = n.id ∧ e.target = id := by
  unfold nextNodes at h
  obtain ⟨e, he, rfl⟩ := List.mem_map.mp h
  have houtgoing : e ∈ d.outgoing n.id := by
    split at he
    · exact (List.mem_filter.mp he).1
    · exact he
  obtain ⟨hmem, hsource⟩ := List.mem_filter.mp houtgoing
  exact ⟨e, hmem, of_decide_eq_true hsource, rfl⟩

/-! ## wellformed definitions -/

/-- A definition with a start node, in which edges join nodes and nodes have known kinds. -/
structure Wellformed (d : Definition) : Prop where
  start : ∃ n, d.startNode? = some n
  edges : ∀ e ∈ d.edges, d.hasNode e.source = true ∧ d.hasNode e.target = true
  kinds : ∀ n ∈ d.nodes, n.kind.isKnown = true

/-- the node with an id, if it is of a known kind and not listed as unreachable -/
def runnable? (d : Definition) (id : String) : Option Node :=
  (d.findNode? id).filter fun n => n.kind.isKnown && !d.unreachable.contains id

/-- An id of a node of a known kind, that is not listed as unreachable. -/
def Runnable (d : Definition) (id : String) : Prop := ∃ n, d.runnable? id = some n

theorem runnable?_eq_some {n : Node} : d.runnable? id = some n ↔
    d.findNode? id = some n ∧ n.kind.isKnown = true ∧ id ∉ d.unreachable := by
  rw [runnable?, Option.filter_eq_some_iff]
  simp


namespace Wellformed

theorem runnable_iff (h : d.Wellformed) :
    d.Runnable id ↔ d.hasNode id = true ∧ id ∈ d.reachable := by
  obtain ⟨s, hs⟩ := h.start
  constructor
  · rintro ⟨n, hrunnable⟩
    obtain ⟨hn, _, hlisted⟩ := runnable?_eq_some.mp hrunnable
    have hnode := hasNode_iff_findNode?.mpr ⟨n, hn⟩
    refine ⟨hnode, ?_⟩
    by_contra hnot
    exact hlisted (mem_unreachable_iff.mpr ⟨by rw [hs]; rfl, hnode, hnot⟩)
  · rintro ⟨hnode, hreach⟩
    obtain ⟨n, hn⟩ := hasNode_iff_findNode?.mp hnode
    exact ⟨n, runnable?_eq_some.mpr ⟨hn, h.kinds n (List.mem_of_find?_eq_some hn),
      fun hlisted => (mem_unreachable_iff.mp hlisted).2.2 hreach⟩⟩

/-- the start node can be run -/
theorem runnable_start (h : d.Wellformed) {s : Node} (hs : d.startNode? = some s) :
    d.Runnable s.id := by
  refine h.runnable_iff.mpr ⟨hasNode_iff.mpr ?_, mem_reachable_iff.mpr ⟨s, hs, .refl⟩⟩
  exact List.mem_map_of_mem (List.mem_of_find?_eq_some hs)

/-- what follows a node that can be run can be run -/
theorem next (h : d.Wellformed) {n : Node} (hn : d.Runnable n.id) {route : Option String}
    (hid : id ∈ d.nextNodes n route) : d.Runnable id := by
  obtain ⟨e, he, hsource, htarget⟩ := edge_of_mem_nextNodes hid
  obtain ⟨hs, ht⟩ := h.edges e he
  rw [hsource] at hs
  rw [htarget] at ht
  obtain ⟨start, hstart, hpath⟩ := mem_reachable_iff.mp (h.runnable_iff.mp hn).2
  have hjoins : d.Joins n.id id := ⟨e, he, hsource, htarget, hs, ht⟩
  exact h.runnable_iff.mpr ⟨ht, mem_reachable_iff.mpr ⟨start, hstart, hpath.tail hjoins⟩⟩

end Wellformed
end Workflows.Definition
