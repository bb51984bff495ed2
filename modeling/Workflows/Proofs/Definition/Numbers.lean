import Workflows.Proofs.Definition.Reach

/-!
# Definitions as numbered graphs

A search through a graph knows its nodes by their numbers.  Each node of a definition has one, and an id stands
for the last node that has it.

* `Exhaustive`     a search that visits what arcs lead to, and nothing else
* `depthFirst`     the search with a stack
* `numbers`        the number of the last node with an id
* `arcs`           the edges between nodes, by number
* `unvisited?`     the nodes whose ids a search from the start node leaves out

Main statements: the search with a stack is exhaustive (`depthFirst_exhaustive`).  The nodes that cannot be
reached are listed in their order, all of them and no others, and every exhaustive search leaves out the same
(`unreachable_exact`).
-/

namespace Workflows.Definition

/-! ## searches -/

/-- an arc from one number to another -/
def Arc (arcs : List (Nat × Nat)) (a b : Nat) : Prop := (a, b) ∈ arcs

def Exhaustive (visit : List (Nat × Nat) → Nat → List Nat) : Prop :=
  ∀ arcs start n, n ∈ visit arcs start ↔ Relation.ReflTransGen (Arc arcs) start n

/-- the ends of the arcs that leave a number -/
def heads (arcs : List (Nat × Nat)) (n : Nat) : List Nat :=
  (arcs.filter (·.1 = n)).map (·.2)

section
variable {arcs : List (Nat × Nat)} {n m a b : Nat} {stack seen : List Nat}

theorem mem_heads : b ∈ heads arcs a ↔ Arc arcs a b := by
  simp only [heads, List.mem_map, List.mem_filter, decide_eq_true_iff]
  constructor
  · rintro ⟨⟨_, _⟩, ⟨he, rfl⟩, rfl⟩
    exact he
  · intro h
    exact ⟨(a, b), ⟨h, rfl⟩, rfl⟩

/-- the numbers that may still be met -/
def ahead (arcs : List (Nat × Nat)) (stack seen : List Nat) : Finset Nat :=
  ((arcs.map (·.2)).toFinset ∪ stack.toFinset) \ seen.toFinset

theorem mem_ahead : m ∈ ahead arcs stack seen ↔ (m ∈ arcs.map (·.2) ∨ m ∈ stack) ∧ m ∉ seen := by
  simp only [ahead, Finset.mem_sdiff, Finset.mem_union, List.mem_toFinset]

theorem ahead_skip : (ahead arcs stack seen).card ≤ (ahead arcs (n :: stack) seen).card := by
  refine Finset.card_le_card fun m hm => ?_
  obtain ⟨hm, hseen⟩ := mem_ahead.mp hm
  exact mem_ahead.mpr ⟨hm.imp_right (List.mem_cons_of_mem n), hseen⟩

/-- a number that is met for the first time is not met again -/
theorem ahead_visit (h : n ∉ seen) :
    (ahead arcs (heads arcs n ++ stack) (n :: seen)).card < (ahead arcs (n :: stack) seen).card := by
  refine Finset.card_lt_card ((Finset.ssubset_iff_of_subset fun m hm => ?_).mpr ⟨n, ?_, fun hn => ?_⟩)
  · obtain ⟨hm, hseen⟩ := mem_ahead.mp hm
    refine mem_ahead.mpr ⟨?_, fun hmem => hseen (List.mem_cons_of_mem n hmem)⟩
    rcases hm with hm | hm
    · exact .inl hm
    · rcases List.mem_append.mp hm with hm | hm
      · exact .inl (List.mem_map_of_mem (mem_heads.mp hm))
      · exact .inr (List.mem_cons_of_mem n hm)
  · exact mem_ahead.mpr ⟨.inr List.mem_cons_self, h⟩
  · exact (mem_ahead.mp hn).2 List.mem_cons_self

/-- what is visited with a stack, beside what was seen before -/
def explore (arcs : List (Nat × Nat)) : List Nat → List Nat → List Nat
  | [], seen => seen
  | n :: stack, seen =>
    if n ∈ seen then explore arcs stack seen
    else explore arcs (heads arcs n ++ stack) (n :: seen)
termination_by stack seen => ((ahead arcs stack seen).card, stack.length)
decreasing_by
  · rcases Nat.lt_or_eq_of_le (ahead_skip (n := n)) with hlt | heq
    · exact Prod.Lex.left _ _ hlt
    · rw [heq]
      exact Prod.Lex.right _ (Nat.lt_succ_self _)
  · exact Prod.Lex.left _ _ (ahead_visit ‹_›)

/-- What holds of the stack and of what was seen, and along arcs, holds of all that is visited. -/
theorem explore_induct {P : Nat → Prop} (hstack : ∀ n ∈ stack, P n) (hseen : ∀ n ∈ seen, P n)
    (harc : ∀ a b, P a → Arc arcs a b → P b) : ∀ n ∈ explore arcs stack seen, P n := by
  fun_induction explore arcs stack seen with
  | case1 seen => exact hseen
  | case2 n seen stack h ih => exact ih (fun m hm => hstack m (List.mem_cons_of_mem n hm)) hseen
  | case3 n seen stack h ih =>
    have hn := hstack n List.mem_cons_self
    refine ih (fun m hm => ?_) (fun m hm => ?_)
    · rcases List.mem_append.mp hm with hm | hm
      · exact harc n m hn (mem_heads.mp hm)
      · exact hstack m (List.mem_cons_of_mem n hm)
    · rcases List.mem_cons.mp hm with rfl | hm
      · exact hn
      · exact hseen m hm

theorem mem_explore (h : n ∈ stack ∨ n ∈ seen) : n ∈ explore arcs stack seen := by
  fun_induction explore arcs stack seen with
  | case1 seen => exact h.resolve_left List.not_mem_nil
  | case2 m seen stack hm ih =>
    refine ih (h.elim (fun h => ?_) .inr)
    rcases List.mem_cons.mp h with rfl | h
    · exact .inr hm
    · exact .inl h
  | case3 m seen stack _ ih =>
    refine ih (h.elim (fun h => ?_) fun h => .inr (List.mem_cons_of_mem m h))
    rcases List.mem_cons.mp h with rfl | h
    · exact .inr List.mem_cons_self
    · exact .inl (List.mem_append_right _ h)

/-- Nothing that an arc leads to is forgotten: what leaves a visited number is visited or on the stack. -/
theorem explore_closed (h : ∀ a ∈ seen, ∀ b, Arc arcs a b → b ∈ seen ∨ b ∈ stack)
    (ha : a ∈ explore arcs stack seen) (hab : Arc arcs a b) : b ∈ explore arcs stack seen := by
  fun_induction explore arcs stack seen with
  | case1 seen => exact (h a ha b hab).resolve_right List.not_mem_nil
  | case2 n seen stack hn ih =>
    refine ih (fun c hc e hce => ?_) ha
    rcases h c hc e hce with he | he
    · exact .inl he
    · rcases List.mem_cons.mp he with rfl | he
      · exact .inl hn
      · exact .inr he
  | case3 n seen stack _ ih =>
    refine ih (fun c hc e hce => ?_) ha
    rcases List.mem_cons.mp hc with rfl | hc
    · exact .inr (List.mem_append_left _ (mem_heads.mpr hce))
    · rcases h c hc e hce with he | he
      · exact .inl (List.mem_cons_of_mem n he)
      · rcases List.mem_cons.mp he with rfl | he
        · exact .inl List.mem_cons_self
        · exact .inr (List.mem_append_right _ he)

def depthFirst (arcs : List (Nat × Nat)) (start : Nat) : List Nat := explore arcs [start] []

/-- **The search with a stack visits what arcs lead to**, and nothing else. -/
theorem depthFirst_exhaustive : Exhaustive depthFirst := by
  intro arcs start n
  constructor
  · refine explore_induct (fun m hm => ?_) (fun _ hm => nomatch hm) (fun _ _ ha hab => ha.tail hab) n
    rw [List.mem_singleton.mp hm]
  · intro hpath
    induction hpath with
    | refl => exact mem_explore (.inl (List.mem_singleton_self start))
    | tail _ hab ih => exact explore_closed (fun _ ha => nomatch ha) ih hab

end

/-! ## numbers -/

variable {d : Definition} {id source target : String} {k l : Nat}

/-- the number of the last node with an id -/
def numbers (d : Definition) : Dict Nat := Dict.ofList (d.nodes.zipIdx.map fun p => (p.1.id, p.2))

/-- the edges between nodes, by number -/
def arcs (d : Definition) : List (Nat × Nat) :=
  d.edges.filterMap fun e =>
    (d.numbers.get? e.source).bind fun a => (d.numbers.get? e.target).map fun b => (a, b)

def idAt? (d : Definition) (k : Nat) : Option String := d.nodes[k]?.map (·.id)

/-- the nodes whose ids a search from the start node leaves out -/
def unvisited? (d : Definition) (visit : List (Nat × Nat) → Nat → List Nat) : Option (List String) :=
  match d.startNode? with
  | none => some []
  | some s => (d.numbers.get? s.id).map fun start =>
    let visited := (visit d.arcs start).filterMap d.idAt?
    (d.nodes.filter fun n => !visited.contains n.id).map (·.id)

theorem get?_numbers : d.numbers.get? id =
    Dict.get? (d.nodes.zipIdx.map fun p => (p.1.id, p.2)).reverse id := by
  rw [numbers, Dict.ofList, Dict.get?_overlay, Dict.get?_nil, Option.or_none]

/-- a number belongs to a node with the id -/
theorem idAt?_of_number (h : d.numbers.get? id = some k) : d.idAt? k = some id := by
  rw [get?_numbers] at h
  obtain ⟨⟨n, _⟩, hp, he⟩ := List.mem_map.mp (List.mem_reverse.mp (Dict.mem_of_get? h))
  cases he
  rw [idAt?, List.mem_zipIdx_iff_getElem?.mp hp]
  rfl

theorem number_injective (hs : d.numbers.get? source = some k) (ht : d.numbers.get? target = some k) :
    source = target :=
  Option.some.inj ((idAt?_of_number hs).symm.trans (idAt?_of_number ht))

/-- each id of a node has a number -/
theorem hasNode_iff_number : d.hasNode id = true ↔ ∃ k, d.numbers.get? id = some k := by
  rw [hasNode_iff]
  constructor
  · intro h
    obtain ⟨n, hn, rfl⟩ := List.mem_map.mp h
    obtain ⟨k, hk⟩ := List.getElem?_of_mem hn
    cases hnumber : d.numbers.get? n.id with
    | some l => exact ⟨l, rfl⟩
    | none =>
      rw [get?_numbers] at hnumber
      have hmem : (n.id, k) ∈ d.nodes.zipIdx.map fun p => (p.1.id, p.2) :=
        List.mem_map_of_mem (List.mem_zipIdx_iff_getElem? (x := (n, k)).mpr hk)
      exact absurd rfl (Dict.ne_of_get?_eq_none hnumber (List.mem_reverse.mpr hmem))
  · rintro ⟨k, hk⟩
    obtain ⟨n, hn, rfl⟩ := Option.map_eq_some_iff.mp (idAt?_of_number hk)
    exact List.mem_map_of_mem (List.mem_of_getElem? hn)

theorem arc_iff (hs : d.numbers.get? source = some k) :
    Arc d.arcs k l ↔ ∃ target, d.numbers.get? target = some l ∧ d.Joins source target := by
  simp only [Arc, arcs, List.mem_filterMap, Option.bind_eq_some_iff, Option.map_eq_some_iff]
  constructor
  · rintro ⟨e, he, a, ha, b, hb, hpair⟩
    cases hpair
    have hsource := number_injective ha hs
    exact ⟨e.target, hb, e, he, hsource, rfl, hasNode_iff_number.mpr ⟨_, hs⟩,
      hasNode_iff_number.mpr ⟨_, hb⟩⟩
  · rintro ⟨target, ht, e, he, rfl, rfl, -, -⟩
    exact ⟨e, he, k, hs, l, ht, rfl⟩

/-- arcs lead from the number of an id to the numbers of the ids that edges lead to -/
theorem paths_iff (hs : d.numbers.get? source = some k) :
    Relation.ReflTransGen (Arc d.arcs) k l ↔
      ∃ target, d.numbers.get? target = some l ∧ Relation.ReflTransGen d.Joins source target := by
  constructor
  · intro hpath
    induction hpath with
    | refl => exact ⟨source, hs, .refl⟩
    | tail _ harc ih =>
      obtain ⟨middle, hmiddle, hpath⟩ := ih
      obtain ⟨target, ht, hjoins⟩ := (arc_iff hmiddle).mp harc
      exact ⟨target, ht, hpath.tail hjoins⟩
  · rintro ⟨target, ht, hpath⟩
    induction hpath generalizing l with
    | refl =>
      cases Option.some.inj (hs.symm.trans ht)
      exact .refl
    | @tail middle last _ hjoins ih =>
      have hnode : d.hasNode middle = true := by
        obtain ⟨_, _, _, _, hnode, _⟩ := hjoins
        exact hnode
      obtain ⟨m, hm⟩ := hasNode_iff_number.mp hnode
      exact (ih hm).tail ((arc_iff hm).mpr ⟨last, ht, hjoins⟩)

/-- the ids that an exhaustive search visits -/
theorem mem_visited {visit : List (Nat × Nat) → Nat → List Nat} (h : Exhaustive visit)
    (hs : d.numbers.get? source = some k) (hid : d.hasNode id = true) :
    id ∈ (visit d.arcs k).filterMap d.idAt? ↔ Relation.ReflTransGen d.Joins source id := by
  rw [List.mem_filterMap]
  constructor
  · rintro ⟨l, hl, he⟩
    obtain ⟨target, ht, hpath⟩ := (paths_iff hs).mp ((h _ _ _).mp hl)
    cases Option.some.inj ((idAt?_of_number ht).symm.trans he)
    exact hpath
  · intro hpath
    obtain ⟨l, hl⟩ := hasNode_iff_number.mp hid
    exact ⟨l, (h _ _ _).mpr ((paths_iff hs).mpr ⟨id, hl, hpath⟩), idAt?_of_number hl⟩

/-! ## the list -/

theorem hasNode_of_mem {n : Node} (h : n ∈ d.nodes) : d.hasNode n.id = true :=
  hasNode_iff.mpr (List.mem_map_of_mem h)

theorem startNode?_number {s : Node} (h : d.startNode? = some s) : ∃ k, d.numbers.get? s.id = some k :=
  hasNode_iff_number.mp (hasNode_of_mem (List.mem_of_find?_eq_some h))

open Classical in
theorem unreachable_eq_filter {s : Node} (h : d.startNode? = some s) : d.unreachable =
    (d.nodes.filter fun n => ¬ Relation.ReflTransGen d.Joins s.id n.id).map (·.id) := by
  rw [unreachable, h]
  refine congrArg (List.map _) (List.filter_congr fun n _ => ?_)
  have hiff : n.id ∈ d.reachable ↔ Relation.ReflTransGen d.Joins s.id n.id := by
    rw [mem_reachable_iff, h]
    simp
  by_cases hn : Relation.ReflTransGen d.Joins s.id n.id
  · simp [hiff, hn]
  · simp [hiff, hn]

/-- an exhaustive search through the numbers leaves out what cannot be reached -/
theorem unvisited?_eq {visit : List (Nat × Nat) → Nat → List Nat} (h : Exhaustive visit) :
    d.unvisited? visit = some d.unreachable := by
  unfold unvisited?
  cases hs : d.startNode? with
  | none => rw [unreachable, hs]
  | some s =>
    obtain ⟨k, hk⟩ := startNode?_number hs
    rw [unreachable_eq_filter hs]
    dsimp only
    rw [hk]
    refine congrArg some (congrArg (List.map _) (List.filter_congr fun n hn => ?_))
    have hiff := mem_visited h hk (hasNode_of_mem hn)
    by_cases hpath : Relation.ReflTransGen d.Joins s.id n.id
    · simp [hiff, hpath]
    · simp [hiff, hpath]

open Classical in
/-- **The list of unreachable nodes is exact**: it has, in their order, the nodes to which no path leads from the
start node, each as often as it stands in the definition.  An exhaustive search through numbers gives the
same list. -/
theorem unreachable_exact (d : Definition) (visit : List (Nat × Nat) → Nat → List Nat)
    (hvisit : Exhaustive visit) :
    (d.startNode? = none → d.unreachable = []) ∧
    (∀ s, d.startNode? = some s → d.unreachable =
      (d.nodes.filter fun n => ¬ Relation.ReflTransGen d.Joins s.id n.id).map (·.id)) ∧
    d.unvisited? visit = some d.unreachable := by
  refine ⟨fun h => ?_, fun s h => unreachable_eq_filter h, unvisited?_eq hvisit⟩
  rw [unreachable, h]

namespace Sample

/-- a definition with a circle, a loop, an edge to no node, and two ids that are used twice -/
def knot : Definition where
  id := "knot"
  name := "knot"
  description := none
  status := .published
  version := 1
  subprocessCompatible := false
  nodes := [⟨"lost", .task, none, .null⟩, ⟨"a", .start, none, .null⟩, ⟨"b", .task, none, .null⟩,
    ⟨"lost", .task, none, .null⟩, ⟨"b", .merge, none, .null⟩, ⟨"apart", .finish, none, .null⟩]
  edges := [⟨"1", "a", "b", none, none⟩, ⟨"2", "b", "a", none, none⟩, ⟨"3", "b", "b", none, none⟩,
    ⟨"4", "b", "ghost", none, none⟩, ⟨"5", "ghost", "apart", none, none⟩, ⟨"6", "lost", "b", none, none⟩]

end Sample

theorem unreachable_exact_knot : Exhaustive depthFirst ∧
    Sample.knot.unvisited? depthFirst = some ["lost", "lost", "apart"] ∧
    ¬ Relation.ReflTransGen Sample.knot.Joins "a" "apart" := by
  obtain ⟨-, hlist, hvisited⟩ := unreachable_exact Sample.knot depthFirst depthFirst_exhaustive
  have hknot : Sample.knot.unreachable = ["lost", "lost", "apart"] := by decide +kernel
  refine ⟨depthFirst_exhaustive, hvisited.trans (congrArg some hknot), fun hpath => ?_⟩
  have hapart : "apart" ∈ Sample.knot.unreachable := by
    rw [hknot]
    decide
  rw [hlist ⟨"a", .start, none, .null⟩ (by decide +kernel)] at hapart
  obtain ⟨n, hn, he⟩ := List.mem_map.mp hapart
  have hnot : ¬ Relation.ReflTransGen Sample.knot.Joins "a" n.id := by
    simpa using (List.mem_filter.mp hn).2
  rw [he] at hnot
  exact hnot hpath

end Workflows.Definition
