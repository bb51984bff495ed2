import Workflows.Proofs.Engine.Memory
import Workflows.Proofs.Engine.Parking
import Workflows.Proofs.Engine.Telling

/-!
# The downfall of a chain

A parent fails with a child that has not completed, and so does its own parent.  An instance that is
cancelled or fails takes with it every chain of instances that wait for it, one through another.

* `DependsOn`   an instance that waits for a child, in a definition that has the node of the child
* `Fallen`      an instance that has failed with its child

Main statement: with the last instance of a chain all the others fall (`downfall`).
-/

namespace Workflows.Engine
variable {names : Nat → String} {maxLevel : Nat} {env : Env} {w w' u : World} {act : Act}
  {result : Except EngineError Unit} {fuel : Nat} {id p c : String}
  {child parent i j : Instance} {link : ChildLink} {st : Store} {ids : Nat → String} {k : Nat}

/-! ## one parent -/

def DependsOn (st : Store) (parentId childId : String) : Prop :=
  ∃ parent link d n, st.getInstance? parentId = some parent ∧ ParksOn parent childId ∧
    st.getLink? childId = some link ∧ link.parentId = parentId ∧
    definitionOf? st parent = some d ∧ d.findNode? link.parentNodeId = some n

def Fallen (st : Store) (parentId childId : String) : Prop :=
  ∃ parent child, st.getInstance? parentId = some parent ∧ st.getInstance? childId = some child ∧
    parent.status = .failed ∧
    parent.error =
      some ("Subprocess " ++ childId ++ " failed: " ++ child.error.getD child.status.name) ∧
    (parent.children.filter fun e => e.instanceId = childId).map (·.status) = [child.status]

theorem DependsOn.alive (h : DependsOn st p c) (hi : st.getInstance? p = some i) :
    i.status.isTerminal = false := by
  obtain ⟨parent, _, _, _, hp, hparks, _⟩ := h
  cases Option.some.inj (hp.symm.trans hi)
  exact not_terminal_of_parked hparks.1

theorem DependsOn.resting (h : DependsOn st p c) (hi : st.getInstance? p = some i) :
    i.status ≠ .running := by
  obtain ⟨parent, _, _, _, hp, hparks, _⟩ := h
  cases Option.some.inj (hp.symm.trans hi)
  exact fun hr => not_parksOn_of_running hr hparks

theorem DependsOn.kept (h : DependsOn w.store p c) (hk : Kept w.store u.store)
    (hlinks : ∀ id link, w.store.getLink? id = some link → u.store.getLink? id = some link)
    (hp : ∀ parent, Has p parent w → Has p parent u) : DependsOn u.store p c := by
  obtain ⟨parent, link, d, n, hparent, hparks, hlink, hid, hd, hn⟩ := h
  refine ⟨parent, link, d, n, hp parent hparent, hparks, hlinks _ _ hlink, hid, ?_, hn⟩
  rw [hk.definitionOf?]
  exact hd

/-- a parent without an entry for a child, after the report of the child -/
theorem rememberChild_entry (nodeId : String) (h : ∀ e ∈ parent.children, e.instanceId ≠ child.id) :
    ((parent.rememberChild child nodeId).children.filter fun e => e.instanceId = child.id).map
      (·.status) = [child.status] := by
  have hnew : ¬ (parent.children.any fun e => e.instanceId = child.id) = true := by
    intro hany
    obtain ⟨e, he, hid⟩ := List.any_eq_true.mp hany
    exact h e he (of_decide_eq_true hid)
  have hnone : parent.children.filter (fun e => e.instanceId = child.id) = [] := by
    refine List.filter_eq_nil_iff.mpr fun e he hid => ?_
    exact h e he (of_decide_eq_true hid)
  unfold Instance.rememberChild
  rw [if_neg hnew]
  show ((parent.children ++ [_]).filter _).map _ = _
  rw [List.filter_append, hnone, List.nil_append, List.filter_singleton]
  simp

theorem Deed.failed (h : Deed names maxLevel (.wake link child) w u)
    (hn : child.status ≠ .completed) (hp : Has link.parentId parent w) :
    ∃ now, Has link.parentId ((failedWith parent child link now).written now) u := by
  obtain ⟨v, scene, hquiet, hopening, hmoves⟩ := h
  cases hopening with
  | wake _ _ hc => exact absurd hc hn
  | note _ _ hc => exact absurd hc hn
  | @failWith _ i _ _ _ now hwoken _ =>
    have hid := hwoken.reports.parent
    have hstored := hp.quiet hquiet
    rw [hid] at hstored ⊢
    cases Option.some.inj (hwoken.stored.symm.trans hstored)
    obtain ⟨_, hquiet'⟩ := Moves.quiet_of_nil hmoves rfl
    refine ⟨now, Has.quiet ?_ hquiet'⟩
    exact World.getInstance?_put_self (sameOrigin_failedWith parent child link now).id

/-! ## the chain -/

theorem DependsOn.waitedFor (h : DependsOn w.store p c) (hc : Has c child w)
    (ht : child.status.isTerminal = true) (hk : w.store.Keyed) (hf : Family w) :
    ∃ parent link d n, WaitedFor w.store child parent link ∧ link.parentId = p ∧
      definitionOf? w.store parent = some d ∧ d.findNode? link.parentNodeId = some n := by
  obtain ⟨parent, link, d, n, hparent, hparks, hlink, hid, hd, hn⟩ := h
  have hcid : child.id = c := hk _ _ hc
  subst hcid hid
  refine ⟨parent, link, d, n, ⟨hc, ht, ?_, hlink, hparks.isParkedOn, hparent⟩, rfl, hd, hn⟩
  rw [(hf _ link child hlink hc).parentId]
  rfl

theorem WaitedFor.unique {parent' : Instance} {link' : ChildLink}
    (h : WaitedFor st child parent link) (h' : WaitedFor st child parent' link') :
    parent' = parent ∧ link' = link := by
  have hlink : link' = link := Option.some.inj (h'.linked.symm.trans h.linked)
  subst hlink
  exact ⟨Option.some.inj (h'.parent.symm.trans h.parent), rfl⟩

/-- The instances of a chain that ends in one that is over are not the parent of that one, but for
the last. -/
theorem chain_ne (hchain : ∀ j < k + 1, DependsOn st (ids j) (ids (j + 1)))
    (hc : st.getInstance? (ids (k + 1)) = some child) (ht : child.status.isTerminal = true)
    {j : Nat} (hj : j < k) : ids j ≠ ids k := by
  intro he
  obtain ⟨p, _, _, _, hp, ⟨_, wait, hwait, _, hid⟩, _⟩ := hchain j (Nat.lt_succ_of_lt hj)
  obtain ⟨q, _, _, _, hq, ⟨_, wait', hwait', _, hid'⟩, _⟩ := hchain k (Nat.lt_succ_self k)
  rw [he] at hp
  cases Option.some.inj (hq.symm.trans hp)
  cases Option.some.inj (hwait'.symm.trans hwait)
  have hnext : ids (j + 1) = ids (k + 1) := hid.symm.trans hid'
  rw [← hnext] at hc
  have halive := (hchain (j + 1) (Nat.succ_lt_succ hj)).alive hc
  exact Bool.noConfusion (ht.symm.trans halive)

/-- the first round of a climb from a child that has not completed: its parent fails -/
theorem Climb.fells {d : Definition} {n : Node} (h : Climb names maxLevel fuel child w result w')
    (hw : WaitedFor w.store child parent link) (hd : definitionOf? w.store parent = some d)
    (hnode : d.findNode? link.parentNodeId = some n) (hn : child.status ≠ .completed)
    (hf : Family w) (hfuel : (shallow w child.nestingLevel).card < fuel) :
    ∃ fuel u r now, r = (failedWith parent child link now).written now ∧
      Deed names maxLevel (.wake link child) w u ∧ Has link.parentId r u ∧
      Climb names maxLevel fuel r u result w' ∧ (shallow u r.nestingLevel).card < fuel := by
  cases h with
  | exhausted => exact absurd hfuel (Nat.not_lt_zero _)
  | ended hnone => exact absurd hw (hnone _ _)
  | refused hw' hlost =>
    obtain ⟨rfl, rfl⟩ := hw.unique hw'
    rw [hlost d hd] at hnode
    cases hnode
  | @up fuel _ _ r _ _ u _ _ hw' hdeed hr hclimb =>
    obtain ⟨rfl, rfl⟩ := hw.unique hw'
    obtain ⟨now, hfailed⟩ := hdeed.failed hn hw.parent
    have hless := hdeed.shallow_wake_lt hw.parent (hw.level hf) hr
    exact ⟨fuel, u, r, now, Option.some.inj (hr.symm.trans hfailed), hdeed, hr, hclimb,
      Nat.lt_of_lt_of_le hless (Nat.le_of_lt_succ hfuel)⟩

/-- The chain falls from its last instance upward.  The induction is on the length of the chain: the
parent of the last instance fails, and is the last instance of what is left of the chain. -/
theorem Climb.fells_chain (h : Climb names maxLevel fuel child w result w') (hk : w.store.Keyed)
    (hf : Family w) (hfuel : (shallow w child.nestingLevel).card < fuel)
    (hc : Has (ids k) child w) (ht : child.status.isTerminal = true)
    (hn : child.status ≠ .completed)
    (hchain : ∀ j < k, DependsOn w.store (ids j) (ids (j + 1)))
    (hnew : ∀ j < k, ∀ i, Has (ids j) i w → ∀ e ∈ i.children, e.instanceId ≠ ids (j + 1)) :
    ∀ j < k, Fallen w'.store (ids j) (ids (j + 1)) := by
  induction k generalizing fuel child w with
  | zero => exact fun j hj => absurd hj (Nat.not_lt_zero j)
  | succ k ih =>
    have hlast : DependsOn w.store (ids k) (ids (k + 1)) := hchain k (Nat.lt_succ_self k)
    obtain ⟨parent, link, d, n, hwaited, hid, hd, hnode⟩ := hlast.waitedFor hc ht hk hf
    obtain ⟨fuel', u, r, now, hr, hdeed, hru, hclimb, hfuel'⟩ :=
      h.fells hwaited hd hnode hn hf hfuel
    have hparent : Has (ids k) parent w := hid ▸ hwaited.parent
    have hru' : Has (ids k) r u := hid ▸ hru
    have hfailed : r.status = .failed := by
      rw [hr]
      rfl
    have hended : r.status.isTerminal = true := by
      rw [hfailed]
      rfl
    -- the rest of the chain stands still meanwhile
    have hrest : ∀ j < k, ∀ i, Has (ids j) i w → Has (ids j) i u := by
      intro j hj i hi
      refine hdeed.has_other ((hchain j (Nat.lt_succ_of_lt hj)).resting hi) (fun he => ?_) hi
      exact chain_ne hchain hc ht hj ((Option.some.inj he).symm.trans hid)
    have habove : ∀ j < k, Fallen w'.store (ids j) (ids (j + 1)) := by
      refine ih hclimb (hdeed.keyed hk) (hdeed.family hf) hfuel' hru'
        hended (by rw [hfailed]; decide) (fun j hj => ?_) (fun j hj i hi => ?_)
      · exact (hchain j (Nat.lt_succ_of_lt hj)).kept hdeed.kept (fun _ _ hl => hdeed.getLink? hl)
          (hrest j hj)
      · obtain ⟨p, _, _, _, hp, _⟩ := hchain j (Nat.lt_succ_of_lt hj)
        cases Option.some.inj ((hrest j hj p hp).symm.trans hi)
        exact hnew j (Nat.lt_succ_of_lt hj) _ hp
    have hfallen : Fallen w'.store (ids k) (ids (k + 1)) := by
      have hcid : child.id = ids (k + 1) := hk _ _ hc
      refine ⟨r, child, hclimb.has_ended hended hru',
        hclimb.has_ended ht (hdeed.has_ended ht hc), hfailed, ?_, ?_⟩
      · rw [hr, ← hcid]
        rfl
      · rw [hr, ← hcid]
        refine rememberChild_entry link.parentNodeId fun e he => ?_
        rw [hcid]
        exact hnew k (Nat.lt_succ_self k) parent hparent e he
    intro j hj
    rcases Nat.lt_succ_iff_lt_or_eq.mp hj with hj | rfl
    · exact habove j hj
    · exact hfallen

/-! ## operations -/

theorem DependsOn.level (h : DependsOn w.store p c) (hf : Family w) (hi : Has p i w)
    (hc : Has c child w) : child.nestingLevel = i.nestingLevel + 1 := by
  obtain ⟨_, link, _, _, _, _, hlink, hid, _⟩ := h
  obtain ⟨q, hq, hlevel⟩ := (hf c link child hlink hc).parent
  rw [hid] at hq
  cases Option.some.inj (hq.symm.trans hi)
  exact hlevel

theorem chain_level_lt (hf : Family w)
    (hchain : ∀ j < k, DependsOn w.store (ids j) (ids (j + 1))) (hc : Has (ids k) child w) {j : Nat}
    (hj : j < k) (hi : Has (ids j) i w) : i.nestingLevel < child.nestingLevel := by
  induction k generalizing child with
  | zero => exact absurd hj (Nat.not_lt_zero j)
  | succ k ih =>
    have hlast := hchain k (Nat.lt_succ_self k)
    obtain ⟨parent, _, _, _, hp, _⟩ := id hlast
    have hlevel : child.nestingLevel = parent.nestingLevel + 1 := hlast.level hf hp hc
    rcases Nat.lt_succ_iff_lt_or_eq.mp hj with hj | rfl
    · have hlt := ih (fun j hj => hchain j (Nat.lt_succ_of_lt hj)) hp hj
      omega
    · cases Option.some.inj (hp.symm.trans hi)
      omega

theorem runFrom_cancel (hi : w.store.getInstance? i.id = some i)
    (ht : i.status.isTerminal = false) : runFrom (cancel env i.id) w =
      runFrom (finish env ((i.setStatus .cancelled (env.time w)).written (env.time w)))
        (((w.locked i.id).announce ((i.setStatus .cancelled (env.time w)).written (env.time w))
          (env.time w)).unlocked i.id) := by
  have hi' : (w.locked i.id).store.getInstance? i.id = some i := hi
  refine runFrom_bind_ok (runFrom_locked_ok ?_) _
  rw [runFrom_bind_ok (runFrom_getInstance hi'), if_neg (Bool.eq_false_iff.mp ht)]
  exact runFrom_enterStatus env hi' .cancelled

/-- an instance that has not ended is cancelled, whatever becomes of its parents -/
theorem cancel_cancels (ho : Orderly env.idName w) (hi : w.store.getInstance? i.id = some i)
    (ht : i.status.isTerminal = false) :
    ∃ j, Has i.id j (runFrom (cancel env i.id) w).2 ∧ j.status = .cancelled := by
  rw [runFrom_cancel hi ht]
  generalize hj : (i.setStatus .cancelled (env.time w)).written (env.time w) = j
  have hid : j.id = i.id := by
    rw [← hj]
    rfl
  have hstatus : j.status = .cancelled := by
    rw [← hj]
    rfl
  have hended : j.status.isTerminal = true := by
    rw [hstatus]
    rfl
  have hput : Has i.id j (((w.locked i.id).announce j (env.time w)).unlocked i.id) :=
    World.getInstance?_put_self hid
  have hwrites : Writes env.idName env.settings.maxNestingLevel w
      (((w.locked i.id).announce j (env.time w)).unlocked i.id) := by
    refine .record hi ?_ rfl rfl rfl
    rw [← hj]
    exact (sameOrigin_setStatus i .cancelled _).written _
  exact ⟨j, (finish_climbs (hwrites.orderly ho) hput).has_ended hended hput, hstatus⟩

/-- what is listed is over, so a child that lives is not listed yet -/
theorem Remembers.unlisted (hm : Remembers w) (hp : Has p parent w) (hc : Has c child w)
    (ha : child.status.isTerminal = false) : ∀ e ∈ parent.children, e.instanceId ≠ c := by
  rintro e he rfl
  obtain ⟨k, _, hk, ht, _⟩ := (hm p parent hp).recalled e he
  cases Option.some.inj (hk.symm.trans hc)
  exact Bool.noConfusion (ht.symm.trans ha)

/-- **With the last instance of a chain all the others fall.**  Each of them stands still until the
next one is reported.  The last one is cancelled, or fails by whatever call; then after this call
all the others have failed with the error of the next one, and list it once, as it has ended. -/
theorem downfall (env : Env) (w : World) (h : Reached env w) (call : Call) (k : Nat)
    (ids : Nat → String) (hchain : ∀ j < k, DependsOn w.store (ids j) (ids (j + 1)))
    (last : Instance) (hlast : w.store.getInstance? (ids k) = some last)
    (ha : last.status.isTerminal = false)
    (hend : call.operation = .cancel (ids k) ∨
      ((call.from env w).store.getInstance? (ids k)).map (·.status) = some .failed) :
    ∀ j < k, Fallen (call.from env w).store (ids j) (ids (j + 1)) := by
  have ho := h.orderly
  have hid : last.id = ids k := ho.keyed _ _ hlast
  obtain ⟨last', hlast', ht, hn⟩ : ∃ last', Has (ids k) last' (call.from env w) ∧
      last'.status.isTerminal = true ∧ last'.status ≠ .completed := by
    rcases hend with hop | hfailed
    · obtain ⟨j, hj, hs⟩ :=
        @cancel_cancels { env with epoch := call.time } w last ho (hid ▸ hlast) ha
      refine ⟨j, ?_, by rw [hs]; rfl, by rw [hs]; decide⟩
      unfold Call.from
      rw [hop, ← hid]
      exact hj
    · obtain ⟨j, hj, hs⟩ := Option.map_eq_some_iff.mp hfailed
      exact ⟨j, hj, by rw [hs]; rfl, by rw [hs]; decide⟩
  obtain ⟨fuel, u, hends⟩ :=
    (call.performed env ho).ends ho.keyed h.family h.walked hlast ha hlast' ht
  have hlevel : last'.nestingLevel = last.nestingLevel := (hends.origin hlast).nestingLevel
  have habove : ∀ j < k, ∀ i, Has (ids j) i w → Has (ids j) i u := by
    intro j hj i hi
    refine hends.above _ i hi ((hchain j hj).resting hi) ?_
    rw [hlevel]
    exact chain_level_lt h.family hchain hlast hj hi
  refine hends.climb.fells_chain hends.keyed hends.family hends.enough hends.stored ht hn
    (fun j hj => (hchain j hj).kept hends.kept hends.links (habove j hj)) fun j hj i hi => ?_
  obtain ⟨parent, _, _, _, hp, _⟩ := hchain j hj
  cases Option.some.inj ((habove j hj parent hp).symm.trans hi)
  by_cases hnext : j + 1 = k
  · rw [hnext]
    exact h.remembers.unlisted hp hlast ha
  · have hdepends := hchain (j + 1) (Nat.lt_of_le_of_ne hj hnext)
    obtain ⟨next, _, _, _, hq, _⟩ := id hdepends
    exact h.remembers.unlisted hp hq (hdepends.alive hq)

namespace Sample

/-- the parent waits for its child -/
def started : World := after Sample.env world calls

theorem started_depends : DependsOn started.store "i" "ii" := by
  have hparent : (started.store.getInstance? "i").any (fun p => p.status = .waiting &&
      p.waitingFor = some ⟨.subprocess, "ii", none⟩ &&
      definitionOf? started.store p = some Sample.parent) = true := by
    decide +kernel
  have hlink : (started.store.getLink? "ii").any (fun l => l.parentId = "i" &&
      l.parentNodeId = "work") = true := by
    decide +kernel
  obtain ⟨p, hp, hboth⟩ := (Option.any_eq_true _ _).mp hparent
  obtain ⟨l, hl, hjoined⟩ := (Option.any_eq_true _ _).mp hlink
  simp only [Bool.and_eq_true, decide_eq_true_eq] at hboth hjoined
  have hnode : Sample.parent.findNode? "work" =
      some ⟨"work", .subprocess, none, .obj [("workflow_id", .str "child")]⟩ := rfl
  refine ⟨p, l, Sample.parent, _, hp, ⟨?_, _, hboth.1.2, rfl, rfl⟩, hl, hjoined.1, hboth.2,
    hjoined.2 ▸ hnode⟩
  rw [hboth.1.1]
  rfl

end Sample

/-- a parent, and its child that is cancelled -/
theorem downfall_cancel :
    DependsOn Sample.started.store "i" "ii" ∧
      Fallen (Call.from Sample.env Sample.started ⟨⟨1, 0⟩, .cancel "ii"⟩).store "i" "ii" := by
  have halive : (Sample.started.store.getInstance? "ii").map (·.status) = some .waiting := by
    decide +kernel
  obtain ⟨last, hlast, hs⟩ := Option.map_eq_some_iff.mp halive
  have hchain : ∀ j < 1,
      DependsOn Sample.started.store (Sample.names j) (Sample.names (j + 1)) := by
    intro j hj
    cases Nat.lt_one_iff.mp hj
    exact Sample.started_depends
  exact ⟨Sample.started_depends, downfall Sample.env Sample.started Sample.reached
    ⟨⟨1, 0⟩, .cancel "ii"⟩ 1 Sample.names hchain last hlast (by rw [hs]; rfl) (.inl rfl) 0
    Nat.zero_lt_one⟩

end Workflows.Engine
