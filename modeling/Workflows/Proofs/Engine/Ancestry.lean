import Workflows.Proofs.Engine.Family
import Workflows.Proofs.Engine.Pinning
import Workflows.Proofs.Subprocess.Tree

/-!
# Ancestries

A child is started by a walk of its parent, so its parent is stored already.  A caller may name any parent for a new
instance, and no store is asked whether there is one.  Circles come from nothing else than a request for a parent
under an id that is yet to be generated.

* `Unguessed`  no such parent
* `Grounded`   a world that calls have made, none of which names such a parent
* `Placed`     an instance that is one level below its parent, or has none among the new instances
* `Rooted`     a world in which every chain of parents ends

The number of an id says when it was generated, and the level of an instance where it was started.  Old instances
keep their chains, and from a new one the way up leads to smaller levels until it comes to an old one.

Main statements: an operation leaves chains of parents that end (`Rooted.grown`), and the execution tree of an
instance shows all that is below it (`executionTree_exact`).
-/

namespace Workflows.Engine
variable {env : Env} {names : Nat → String} {maxLevel b : Nat} {w w' : World} {s s' : Scene}
  {act : Act} {id : String} {i j : Instance} {st st' : Store}

/-! ## worlds without foresight -/

/-- no parent under an id behind the first `b` ones -/
def Unguessed (names : Nat → String) (b : Nat) (parentId : Option String) : Prop :=
  ∀ n, b ≤ n → parentId ≠ some (names n)

/-- A world that calls have made from one without instances, none of them with a parent under an id that was yet to be
generated. -/
inductive Grounded (env : Env) : World → Prop
  | empty {w : World} (hw : w.store.instances = []) (hf : Fresh env.idName w) : Grounded env w
  | call {w : World} (h : Grounded env w) (c : Call)
    (hc : ∀ r, c.operation = .start r → Unguessed env.idName w.ids r.parentId) : Grounded env (c.from env w)
  /-- between calls everything may be changed but instances, their links and the generated ids -/
  | edit {w w' : World} (h : Grounded env w) (hi : w'.store.instances = w.store.instances)
    (hl : w'.store.links = w.store.links) (hids : w'.ids = w.ids) : Grounded env w'

theorem Grounded.reached (h : Grounded env w) : Reached env w := by
  induction h with
  | empty hw hf => exact .empty hw hf
  | call _ c _ ih => exact ih.call c
  | edit _ hi hl hids ih => exact ih.edit hi hl hids

/-! ## one entry for each instance -/

theorem Writes.ordered (h : Writes names maxLevel w w') (ho : w.store.instances.Ordered) :
    w'.store.instances.Ordered := by
  cases h with
  | quiet h =>
    have hsame : w'.store.instances = w.store.instances := congrArg Core.instances h.core
    rw [hsame]
    exact ho
  | create => exact Dict.insert_ordered ho _ _
  | link => exact ho
  | record _ _ hs =>
    rw [hs]
    exact Dict.insert_ordered ho _ _

theorem Reached.listed (h : Reached env w) : w.store.Listed := by
  refine ⟨?_, h.orderly.keyed⟩
  refine (h.induct (P := fun v => v.store.instances.Ordered) (fun hw => ?_)
    (fun _ hp ho => hp.induct (P := fun v => v.store.instances.Ordered) ho Writes.ordered) fun hi _ ho => ?_).2
  · rw [hw]
    exact List.Pairwise.nil
  · rw [hi]
    exact ho

/-! ## places -/

/-- An instance names no parent that is new since the first `b` ids, or is one level below a stored parent. -/
def Placed (names : Nat → String) (b : Nat) (st : Store) (i : Instance) : Prop :=
  Unguessed names b i.parentId ∨
    ∃ p, i.parentId = some p.id ∧ st.getInstance? p.id = some p ∧ i.nestingLevel = p.nestingLevel + 1

def AllPlaced (names : Nat → String) (b : Nat) (w : World) : Prop :=
  ∀ id i, w.store.getInstance? id = some i → Placed names b w.store i

theorem Placed.kept (h : Placed names b st i) (hk : Kept st st') (ho : i.SameOrigin j) : Placed names b st' j := by
  rcases h with hold | ⟨p, hparent, hp, hlevel⟩
  · left
    rw [ho.parentId]
    exact hold
  · right
    obtain ⟨q, hq, hpq⟩ := hk.instances _ p hp
    refine ⟨q, ?_, ?_, ?_⟩
    · rw [ho.parentId, hparent, hpq.id]
    · rw [hpq.id]
      exact hq
    · rw [ho.nestingLevel, hlevel, hpq.nestingLevel]

/-- instances that were there keep their places, so new ones are all that matters -/
theorem AllPlaced.kept (h : AllPlaced names b w) (hk : Kept w.store w'.store)
    (hnew : ∀ id i, w'.store.getInstance? id = some i → w.store.getInstance? id = none →
      Placed names b w'.store i) : AllPlaced names b w' := by
  intro id j hj
  cases hi : w.store.getInstance? id with
  | none => exact hnew id j hj hi
  | some i =>
    obtain ⟨k, hkept, ho⟩ := hk.instances id i hi
    cases Option.some.inj (hkept.symm.trans hj)
    exact (h id i hi).kept hk ho

theorem AllPlaced.quiet (h : AllPlaced names b w) (hq : Quiet w w') : AllPlaced names b w' := by
  apply h.kept (Kept.of_core hq.core)
  intro id i hi hnone
  rw [hq.getInstance?, hnone] at hi
  cases hi

theorem AllPlaced.record (h : AllPlaced names b w) (hi : w.store.getInstance? i.id = some i)
    (ho : i.SameOrigin j) : AllPlaced names b (w.put j) := by
  have hwrites : Writes names 0 w (w.put j) := .record hi ho rfl rfl rfl
  apply h.kept hwrites.kept
  intro id k hk hnone
  obtain ⟨k₀, hk₀, _⟩ := origin_of_put hi ho hk
  rw [hnone] at hk₀
  cases hk₀

theorem AllPlaced.started {r : StartRequest} {d : Definition} (h : AllPlaced names b w)
    (hc : Created names maxLevel w r d i) (hi : Placed names b w.store i) : AllPlaced names b (w.started i d) := by
  have hkept : Kept w.store (w.started i d).store := (Writes.create hc).kept
  apply h.kept hkept
  intro id k hk hnone
  rw [World.started_store, World.getInstance?_put] at hk
  split at hk
  · cases hk
    exact hi.kept hkept (Instance.SameOrigin.refl i)
  · rw [hnone] at hk
    cases hk

theorem Created.parentId {r : StartRequest} {d : Definition} (h : Created names maxLevel w r d i) :
    i.parentId = r.parentId := by
  obtain ⟨_, _, _, he⟩ := h.definition
  rw [he]
  rfl

theorem Move.placed (h : Move names maxLevel s s') (hp : AllPlaced names b s.world) : AllPlaced names b s'.world := by
  cases h with
  | quiet hq => exact hp.quiet hq
  | @create f fs w p i r d hstored hid hr hl hc =>
    apply hp.started hc
    right
    refine ⟨p, ?_, stored_of_frame hstored hid, ?_⟩
    · rw [hc.parentId, hr]
    · rw [hc.nestingLevel, hl]
  | link => exact hp
  | advance hi hid _ h now => exact hp.record (stored_of_frame hi hid) (h.sameOrigin.written now)
  | halt hi hid _ h now => exact hp.record (stored_of_frame hi hid) (h.sameOrigin.written now)

theorem Opening.placed (h : Opening names maxLevel act w s) (hact : ∀ r, act = .start r → Unguessed names b r.parentId)
    (hp : AllPlaced names b w) : AllPlaced names b s.world := by
  rcases h.creates_or_rewrites with ⟨r, d, i, rfl, hc, rfl⟩ | ⟨i, j, hi, _, ho, hs, _⟩
  · apply hp.started hc
    left
    rw [hc.parentId]
    exact hact r rfl
  · have hput := hp.record hi ho
    intro id k hk
    rw [hs] at hk ⊢
    exact hput id k hk

/-- Every instance that an operation starts has its place, if no request guesses an id. -/
theorem upkeep_placed :
    Upkeep names maxLevel (fun r => Unguessed names b r.parentId) (AllPlaced names b) where
  quiet hq hp := hp.quiet hq
  move hm hp := hm.placed hp
  opening ho hact hp := ho.placed hact hp
  step n o vars t t' now hstored hp := hp.record hstored ((sameOrigin_recordStep _ n o vars t t').written now)

/-! ## chains of parents that end -/

/-- No instance names a parent that is still to be started, and no chain of parents goes on for ever. -/
structure Rooted (names : Nat → String) (w : World) : Prop where
  unforeseen : ∀ id i, w.store.getInstance? id = some i → Unguessed names w.ids i.parentId
  acyclic : w.store.Acyclic

theorem Rooted.allPlaced (h : Rooted names w) : AllPlaced names w.ids w :=
  fun id i hi => .inl (h.unforeseen id i hi)

section
variable {x y : String}

/-- an old instance has the parent that it had -/
theorem parentOf?_of_kept (hk : Kept w.store w'.store) (hi : w.store.getInstance? x = some i) :
    w'.store.parentOf? x = w.store.parentOf? x := by
  obtain ⟨j, hj, ho⟩ := hk.instances x i hi
  rw [Store.parentOf?, Store.parentOf?, hi, hj]
  exact ho.parentId

/-- The parent of an instance that is not new was its parent before, and is not new either. -/
theorem Rooted.old_parent (h : Rooted names w) (hg : Grown names w w') (hk : Kept w.store w'.store)
    (hx : ∀ n, w.ids ≤ n → x ≠ names n) (hy : w'.store.IsParent y x) :
    w.store.IsParent y x ∧ ∀ n, w.ids ≤ n → y ≠ names n := by
  obtain ⟨i, hi, _⟩ := Store.parentOf?_eq_some.mp hy
  cases hstored : w.store.getInstance? x with
  | none =>
    obtain ⟨n, hn, _, he⟩ := hg.new x i hi hstored
    exact absurd he (hx n hn)
  | some j =>
    have hbefore : w.store.IsParent y x := (parentOf?_of_kept hk hstored).symm.trans hy
    refine ⟨hbefore, ?_⟩
    rintro n hn rfl
    obtain ⟨k, hk, hparent⟩ := Store.parentOf?_eq_some.mp hbefore
    exact h.unforeseen x k hk n hn hparent

/-- The induction is on the chains of the store as it was. -/
theorem Rooted.acc_old (h : Rooted names w) (hg : Grown names w w') (hk : Kept w.store w'.store) (x : String) :
    (∀ n, w.ids ≤ n → x ≠ names n) → Acc w'.store.IsParent x := by
  induction x using h.acyclic.induction with
  | h x ih =>
    intro hx
    refine ⟨x, fun y hy => ?_⟩
    obtain ⟨hbefore, hold⟩ := h.old_parent hg hk hx hy
    exact ih y hbefore hold

/-- The induction is on levels: a parent is above its child, or it is not new. -/
theorem Rooted.acc_stored (h : Rooted names w) (hg : Grown names w w') (hk : Kept w.store w'.store)
    (hp : AllPlaced names w.ids w') (level : Nat) : ∀ x i, w'.store.getInstance? x = some i →
      i.nestingLevel = level → Acc w'.store.IsParent x := by
  induction level using Nat.strongRecOn with
  | ind level ih =>
    intro x i hi hlevel
    refine ⟨x, fun y hy => ?_⟩
    obtain ⟨j, hj, hparent⟩ := Store.parentOf?_eq_some.mp hy
    cases Option.some.inj (hj.symm.trans hi)
    rcases hp x i hi with hfirst | ⟨p, hpid, hstored, hbelow⟩
    · refine h.acc_old hg hk y ?_
      rintro n hn rfl
      exact hfirst n hn hparent
    · cases Option.some.inj (hpid.symm.trans hparent)
      have habove : p.nestingLevel < level := by omega
      exact ih p.nestingLevel habove p.id p hstored rfl

theorem Rooted.unforeseen_grown (hg : Grown names w w') (hp : AllPlaced names w.ids w')
    (hi : w'.store.getInstance? id = some i) : Unguessed names w'.ids i.parentId := by
  intro n hn hparent
  rcases hp id i hi with hfirst | ⟨p, hpid, hstored, _⟩
  · exact hfirst n (Nat.le_trans hg.ids hn) hparent
  · have hname : p.id = names n := Option.some.inj (hpid.symm.trans hparent)
    rw [hname, hg.fresh.unstored n hn] at hstored
    cases hstored

/-- **Every operation leaves chains of parents that end.** -/
theorem Rooted.grown (h : Rooted names w) (hg : Grown names w w') (hk : Kept w.store w'.store)
    (hp : AllPlaced names w.ids w') : Rooted names w' := by
  refine ⟨fun id i hi => unforeseen_grown hg hp hi, ⟨fun x => ?_⟩⟩
  cases hx : w'.store.getInstance? x with
  | some i => exact h.acc_stored hg hk hp i.nestingLevel x i hx rfl
  | none =>
    refine ⟨x, fun y hy => ?_⟩
    rw [Store.IsParent, Store.parentOf?_eq_none hx] at hy
    cases hy

end

theorem rooted_of_empty (hw : w.store.instances = []) : Rooted names w := by
  refine ⟨fun id i hi => absurd hi (not_stored_of_empty hw), ⟨fun x => ⟨x, fun y hy => ?_⟩⟩⟩
  obtain ⟨i, hi, _⟩ := Store.parentOf?_eq_some.mp hy
  exact absurd hi (not_stored_of_empty hw)

theorem Rooted.edit (h : Rooted names w) (hi : w'.store.instances = w.store.instances) (hids : w'.ids = w.ids) :
    Rooted names w' := by
  have hparent : w'.store.parentOf? = w.store.parentOf? := by
    funext x
    rw [Store.parentOf?, Store.parentOf?, getInstance?_of_instances hi]
  constructor
  · intro id i hstored n hn
    rw [getInstance?_of_instances hi] at hstored
    rw [hids] at hn
    exact h.unforeseen id i hstored n hn
  · unfold Store.Acyclic Store.IsParent
    rw [hparent]
    exact h.acyclic

theorem Grounded.rooted (h : Grounded env w) : Rooted env.idName w := by
  induction h with
  | empty hw _ => exact rooted_of_empty hw
  | @call w hw c hc ih =>
    have ho := hw.reached.orderly
    have hp := c.performed env ho
    have hgrown : Grown env.idName w (c.from env w) :=
      ((grown_safeguard { env with epoch := c.time } w).run (.refl ho.unused) c.operation).kept
    exact ih.grown hgrown hp.kept (upkeep_placed.performed hp hc ih.allPlaced)
  | edit _ hi _ hids ih => exact ih.edit hi hids

/-! ## execution trees -/

/-- **The execution tree of an instance shows all that is below it.**  For each stored root and each depth the tree
has exactly the stored instances whose chain of parents ends at the root within the depth, each once, at the length
of its chain and under its parent, and siblings are in the order of their starts.  If there are no more instances
than levels, no descendant is missing.  Of any other store, circles of parents included, there is a tree as well,
and it is not deeper than the depth. -/
theorem executionTree_exact (env : Env) (w : World) (h : Grounded env w) :
    (∀ now root depth, (w.store.getInstance? root).isSome → ∃ t,
      w.store.executionTree? now root depth = some t ∧ w.store.Shows now root depth t ∧
        (w.store.instances.length ≤ depth → ∀ id, id ∈ t.places.map (·.2) ↔
          (w.store.getInstance? id).isSome ∧ ∃ k, w.store.ancestor? k id = some root)) ∧
    ∀ (s : Store) now root depth, (s.getInstance? root).isSome → ∃ t,
      s.executionTree? now root depth = some t ∧ ∀ e ∈ t.nodes 0, e.1 ≤ depth := by
  have hlisted := h.reached.listed
  have hacyclic := h.rooted.acyclic
  constructor
  · intro now root depth hroot
    obtain ⟨i, hi⟩ := Option.isSome_iff_exists.mp hroot
    have hid : i.id = root := hlisted.keyed root i hi
    subst hid
    have hshows := Store.treeOf_shows hlisted hacyclic now hi depth
    refine ⟨w.store.treeOf now depth i, ?_, hshows, hshows.complete hacyclic hroot⟩
    rw [Store.executionTree?, hi]
    rfl
  · intro s now root depth hroot
    obtain ⟨i, hi⟩ := Option.isSome_iff_exists.mp hroot
    refine ⟨s.treeOf now depth i, ?_, fun e he => ?_⟩
    · rw [Store.executionTree?, hi]
      rfl
    · have hwithin := Store.nodes_treeOf_within he
      rw [Nat.zero_add] at hwithin
      exact hwithin

/-- the tree of a parent with its child -/
theorem executionTree_exact_parent : Grounded Sample.env (after Sample.env Sample.world Sample.calls) ∧
    ∃ t, (after Sample.env Sample.world Sample.calls).store.executionTree? ⟨0, 0⟩ "i" 5 = some t ∧
      ("i" ∈ t.places.map (·.2)) ∧ (1, "ii") ∈ t.places ∧ (2, "ii") ∉ t.places := by
  have hgrounded : Grounded Sample.env (after Sample.env Sample.world Sample.calls) := by
    refine Grounded.call (.empty rfl Sample.fresh) _ ?_
    rintro r hr n -
    cases hr
    exact nofun
  have hstored : ((after Sample.env Sample.world Sample.calls).store.getInstance? "i").isSome ∧
      ((after Sample.env Sample.world Sample.calls).store.getInstance? "ii").isSome ∧
      (after Sample.env Sample.world Sample.calls).store.ancestor? 1 "ii" = some "i" ∧
      (after Sample.env Sample.world Sample.calls).store.ancestor? 2 "ii" = none ∧
      (after Sample.env Sample.world Sample.calls).store.instances.length ≤ 5 := by
    decide +kernel
  obtain ⟨hi, hii, hone, htwo, hlength⟩ := hstored
  obtain ⟨t, ht, hshows, hcomplete⟩ := (executionTree_exact Sample.env _ hgrounded).1 ⟨0, 0⟩ "i" 5 hi
  refine ⟨hgrounded, t, ht, (hcomplete hlength "i").mpr ⟨hi, 0, rfl⟩,
    (hshows.places 1 "ii").mpr ⟨by decide, hii, hone⟩, fun hmem => ?_⟩
  have htop := ((hshows.places 2 "ii").mp hmem).2.2
  rw [htwo] at htop
  cases htop

end Workflows.Engine
