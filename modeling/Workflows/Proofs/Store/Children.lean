import Workflows.Proofs.Engine.Level
import Workflows.Proofs.Json.Records
import Workflows.Proofs.Store.Saved

/-!
# Children and ancestors

The children of an instance are found by a search through all stored instances.  Each instance names its parent, so
the way up from an instance is a chain of names, which may lead to an id that is not stored, or around in a circle.

* `Listed`       a store with one entry for each instance, under the id of the instance
* `parentOf?`    the parent that a stored instance names
* `ancestor?`    the end of a chain of parents
* `Acyclic`      no chain of parents goes on for ever

Main statements: the children are the instances that name the parent, each once, by start
(`mem_childrenOf`, `childrenOf_nodup`, `childrenOf_sorted`); without circles no instance is above itself
(`Acyclic.ancestor?_ne_self`), and a chain has no more links than there are instances (`Acyclic.ancestor?_lt_length`).
-/

namespace Workflows
open Insertion

namespace Dict
variable {α : Type} {d : Dict α} {key : String} {v : α}

theorem Ordered.keys_nodup (h : Ordered d) : (keys d).Nodup := by
  apply List.Pairwise.map Prod.fst _ h
  intro e f hlt heq
  rw [heq] at hlt
  exact String.lt_irrefl _ hlt

theorem get?_of_mem (h : Ordered d) (he : (key, v) ∈ d) : get? d key = some v := by
  induction d with
  | nil => cases he
  | cons e d ih =>
    obtain ⟨hhead, hrest⟩ := List.pairwise_cons.mp h
    rcases List.mem_cons.mp he with rfl | he
    · rw [get?, if_pos rfl]
    · have hne : key ≠ e.1 := by
        intro heq
        have hlt : e.1 < key := hhead (key, v) he
        rw [heq] at hlt
        exact String.lt_irrefl _ hlt
      rw [get?, if_neg hne]
      exact ih hrest he

end Dict

namespace Store
variable {s : Store} {id x y : String} {c i : Instance}

/-! ## instances by start -/

/-- of two instances the second one has not started before the first -/
def NotBefore (i j : Instance) : Prop := j.startedAt.before i.startedAt = false

theorem insertByStart_eq (i : Instance) (is : List Instance) :
    insertByStart i is = is.orderedInsert (fun i j => i.startedAt.before j.startedAt = true) i := by
  induction is with
  | nil => rfl
  | cons j js ih =>
    rw [insertByStart, ih, List.orderedInsert_cons]

theorem sortByStart_eq (is : List Instance) : sortByStart is =
    is.foldl (fun acc i => acc.orderedInsert (fun i j => i.startedAt.before j.startedAt = true) i) [] :=
  congrArg (fun f => is.foldl f []) (funext fun acc => funext fun i => insertByStart_eq i acc)

theorem sortByStart_perm (is : List Instance) : (sortByStart is).Perm is := by
  have hperm := foldl_perm (fun i j : Instance => i.startedAt.before j.startedAt = true) is []
  rw [← sortByStart_eq, List.append_nil] at hperm
  exact hperm

theorem sortByStart_sorted (is : List Instance) : (sortByStart is).Pairwise NotBefore := by
  have hsorted := foldl_sorted (Instant.ranks.on Instance.startedAt) is List.Pairwise.nil
  rw [← sortByStart_eq] at hsorted
  exact hsorted.imp Bool.eq_false_iff.mpr

/-! ## children -/

/-- One entry for each instance, under its id. -/
structure Listed (s : Store) : Prop where
  ordered : s.instances.Ordered
  keyed : s.Keyed

theorem Listed.mem_values (h : s.Listed) :
    i ∈ Dict.values s.instances ↔ s.getInstance? i.id = some i := by
  constructor
  · intro hi
    obtain ⟨⟨key, j⟩, hmem, rfl⟩ := List.mem_map.mp hi
    have hget : s.getInstance? key = some j := Dict.get?_of_mem h.ordered hmem
    rw [h.keyed key j hget]
    exact hget
  · intro hi
    exact List.mem_map.mpr ⟨(i.id, i), Dict.mem_of_get? hi, rfl⟩

theorem Listed.values_nodup (h : s.Listed) : ((Dict.values s.instances).map (·.id)).Nodup := by
  have hkeys : (Dict.values s.instances).map (·.id) = Dict.keys s.instances := by
    rw [Dict.values, Dict.keys, List.map_map]
    apply List.map_congr_left
    intro e he
    exact h.keyed e.1 e.2 (Dict.get?_of_mem h.ordered he)
  rw [hkeys]
  exact h.ordered.keys_nodup

theorem childrenOf_perm (s : Store) (id : String) :
    (s.childrenOf id).Perm ((Dict.values s.instances).filter fun i => i.parentId = some id) :=
  sortByStart_perm _

/-- **The children of an instance are the stored instances that name it.** -/
theorem mem_childrenOf (h : s.Listed) :
    c ∈ s.childrenOf id ↔ s.getInstance? c.id = some c ∧ c.parentId = some id := by
  rw [(childrenOf_perm s id).mem_iff, List.mem_filter, h.mem_values, decide_eq_true_iff]

theorem childrenOf_nodup (h : s.Listed) (id : String) : ((s.childrenOf id).map (·.id)).Nodup := by
  have hperm := (childrenOf_perm s id).map (·.id)
  rw [hperm.nodup_iff]
  exact (List.filter_sublist.map _).nodup h.values_nodup

theorem childrenOf_sorted (s : Store) (id : String) : (s.childrenOf id).Pairwise NotBefore :=
  sortByStart_sorted _

/-! ## chains of parents -/

/-- the parent that a stored instance names -/
def parentOf? (s : Store) (id : String) : Option String := (s.getInstance? id).bind (·.parentId)

/-- the end of a chain of `k` parents -/
def ancestor? (s : Store) : Nat → String → Option String
  | 0, id => some id
  | k + 1, id => (s.parentOf? id).bind (s.ancestor? k)

theorem parentOf?_eq_some :
    s.parentOf? x = some y ↔ ∃ i, s.getInstance? x = some i ∧ i.parentId = some y :=
  Option.bind_eq_some_iff

theorem parentOf?_eq_none (h : s.getInstance? x = none) : s.parentOf? x = none := by
  rw [parentOf?, h]
  rfl

theorem ancestor?_add (s : Store) (a b : Nat) (id : String) :
    s.ancestor? (a + b) id = (s.ancestor? a id).bind (s.ancestor? b) := by
  induction a generalizing id with
  | zero =>
    rw [Nat.zero_add]
    rfl
  | succ a ih =>
    rw [Nat.succ_add]
    show (s.parentOf? id).bind (s.ancestor? (a + b)) = ((s.parentOf? id).bind (s.ancestor? a)).bind (s.ancestor? b)
    rw [Option.bind_assoc]
    exact congrArg _ (funext ih)

theorem ancestor?_one (s : Store) (id : String) : s.ancestor? 1 id = s.parentOf? id :=
  Option.bind_fun_some _

theorem ancestor?_succ (s : Store) (k : Nat) (id : String) :
    s.ancestor? (k + 1) id = (s.ancestor? k id).bind s.parentOf? := by
  rw [ancestor?_add]
  exact congrArg _ (funext s.ancestor?_one)

/-- every instance on a chain is stored, if the last one is -/
theorem stored_of_ancestor? {a b : Nat} {root : String} (hroot : (s.getInstance? root).isSome)
    (h : s.ancestor? (a + b) id = some root) :
    ∃ x, s.ancestor? a id = some x ∧ (s.getInstance? x).isSome := by
  rw [ancestor?_add] at h
  obtain ⟨x, hx, hrest⟩ := Option.bind_eq_some_iff.mp h
  refine ⟨x, hx, ?_⟩
  cases b with
  | zero =>
    cases Option.some.inj hrest
    exact hroot
  | succ b =>
    obtain ⟨y, hy, _⟩ := Option.bind_eq_some_iff.mp hrest
    obtain ⟨i, hi, _⟩ := parentOf?_eq_some.mp hy
    rw [hi]
    rfl

/-! ## without circles -/

def IsParent (s : Store) (y x : String) : Prop := s.parentOf? x = some y

/-- No chain of parents goes on for ever. -/
def Acyclic (s : Store) : Prop := WellFounded s.IsParent

namespace Acyclic
variable {a b : Nat}

theorem ancestor?_ne_self (h : s.Acyclic) (x : String) : ∀ k, s.ancestor? (k + 1) x ≠ some x := by
  induction x using h.induction with
  | h x ih =>
    intro k hcircle
    obtain ⟨p, hp, hrest⟩ := Option.bind_eq_some_iff.mp hcircle
    -- the parent is above itself too
    refine ih p hp k ?_
    rw [ancestor?_succ, hrest]
    exact hp

/-- an ancestor is at one distance only -/
theorem distance_unique (h : s.Acyclic) (ha : s.ancestor? a id = some x) (hb : s.ancestor? b id = some x) : a = b := by
  have hle : ∀ {a b : Nat}, s.ancestor? a id = some x → s.ancestor? b id = some x → b ≤ a := by
    intro a b ha hb
    by_contra hlt
    obtain ⟨k, rfl⟩ := Nat.exists_eq_add_of_lt (Nat.lt_of_not_le hlt)
    rw [Nat.add_assoc, ancestor?_add, ha] at hb
    exact h.ancestor?_ne_self x k hb
  exact Nat.le_antisymm (hle hb ha) (hle ha hb)

/-- **A chain of parents has no more links than there are instances.** -/
theorem ancestor?_lt_length (h : s.Acyclic) {k : Nat} {root : String} (hroot : (s.getInstance? root).isSome)
    (hk : s.ancestor? k id = some root) : k < s.instances.length := by
  have hchain : ∀ a ∈ List.range (k + 1), ∃ x, s.ancestor? a id = some x ∧ (s.getInstance? x).isSome := by
    intro a ha
    rw [List.mem_range] at ha
    have hsum : a + (k - a) = k := by omega
    apply stored_of_ancestor? hroot
    rw [hsum]
    exact hk
  choose! f hf using hchain
  have hnodup : ((List.range (k + 1)).map f).Nodup := by
    apply List.Nodup.map_on _ List.nodup_range
    intro a ha b hb heq
    have hsame := (hf b hb).1
    rw [← heq] at hsame
    exact h.distance_unique (hf a ha).1 hsame
  have hsub : (List.range (k + 1)).map f ⊆ Dict.keys s.instances := by
    intro x hx
    obtain ⟨a, ha, rfl⟩ := List.mem_map.mp hx
    obtain ⟨i, hi⟩ := Option.isSome_iff_exists.mp (hf a ha).2
    exact Dict.mem_keys_of_get? hi
  calc k + 1
      = ((List.range (k + 1)).map f).length := by rw [List.length_map, List.length_range]
    _ ≤ (Dict.keys s.instances).length := (hnodup.subperm hsub).length_le
    _ = s.instances.length := List.length_map _

end Acyclic
end Store
end Workflows
