import Workflows.Proofs.Engine.Family

/-!
# What parents are told

An operation that ends an instance has two parts.  First the instance is written; then its parents
are told, one after the other.

* `Stranded`   a parent whose definition has lost the node of the finished child it waits for
* `Ends`       an instance has ended, and nothing above it knows yet

Main statements: an operation that fails behind its first write has met a stranded parent
(`failed_midway`), and a child that ends changes its parent only if the parent stands still until
the id of the child is reported (`parent_told`).
-/

namespace Workflows.Engine
variable {names : Nat → String} {maxLevel : Nat} {env : Env} {w w' u v : World} {act : Act}
  {op : Operation} {result : Except EngineError Unit} {e : EngineError} {fuel : Nat}
  {id other : String} {c c' i j child parent : Instance} {link : ChildLink}

/-! ## errors behind the first write -/

def Stranded (s : Store) (child parent : Instance) (link : ChildLink) : Prop :=
  WaitedFor s child parent link ∧
    ∀ d, definitionOf? s parent = some d → d.findNode? link.parentNodeId = none

theorem Climb.stranded (h : Climb names maxLevel fuel child w (.error e) w') :
    ∃ child parent link, Stranded w'.store child parent link := by
  generalize hr : Except.error e = result at h
  induction h with
  | exhausted => cases hr
  | ended => cases hr
  | refused hw hd hidle _ =>
    have hsame := hidle.store
    refine ⟨_, _, _, hw.congr hsame, fun d hdef => hd d ?_⟩
    rw [← hsame]
    exact hdef
  | up _ _ _ _ ih => exact ih hr

theorem Performed.stranded (h : Performed names maxLevel w op (.error e) w') :
    w'.store = w.store ∨ ∃ child parent link, Stranded w'.store child parent link := by
  cases h with
  | refused hidle => exact .inl hidle.store
  | resumed _ _ hc => exact .inr hc.stranded
  | cancelled _ _ hc => exact .inr hc.stranded

/-- **An operation that fails has changed nothing, or has met a parent that is stranded.**  In the
second case it is not undone: its instance has been written, and so have the parents below. -/
theorem failed_midway (env : Env) (w : World) (hk : w.store.Keyed) (hf : Fresh env.idName w)
    (op : Operation) (e : EngineError) (he : (runFrom (op.run env) w).1 = .error e) :
    (runFrom (op.run env) w).2.store = w.store ∨
      ∃ child parent link, Stranded (runFrom (op.run env) w).2.store child parent link := by
  have hperformed := run_performed ⟨hf, hk⟩ op
  rw [he] at hperformed
  exact hperformed.stranded

namespace Sample

/-- the workflow of the parent, saved again without the node of the child -/
def bare : Definition := { Sample.parent with
  nodes := [⟨"begin", .start, none, .null⟩]
  edges := [] }

/-- the parent waits for its child, and is stranded when the child ends -/
def strandedWorld : World :=
  { after Sample.env world calls with
    store := (after Sample.env world calls).store.saveWorkflow bare }

theorem reached : Reached Sample.env (after Sample.env world calls) :=
  (Reached.empty rfl fresh).after calls

theorem stranded_reached : Reached Sample.env strandedWorld := reached.saveWorkflow bare

theorem stranded_error :
    (runFrom ((Operation.cancel "ii").run Sample.env) strandedWorld).1 =
      .error (.workflow (.nodeNotFound "work")) := by
  decide +kernel

theorem stranded_changed :
    (runFrom ((Operation.cancel "ii").run Sample.env) strandedWorld).2.store ≠
      strandedWorld.store := by
  have hbefore : (strandedWorld.store.getInstance? "ii").map (·.status) = some .waiting := by
    decide +kernel
  have hafter : ((runFrom ((Operation.cancel "ii").run Sample.env)
      strandedWorld).2.store.getInstance? "ii").map (·.status) = some .cancelled := by
    decide +kernel
  intro hsame
  rw [hsame, hbefore] at hafter
  cases hafter

end Sample

/-- a child that is cancelled in spite of the error that is reported -/
theorem cancelled_midway : Reached Sample.env Sample.strandedWorld ∧
    (runFrom ((Operation.cancel "ii").run Sample.env) Sample.strandedWorld).1 =
      .error (.workflow (.nodeNotFound "work")) ∧
    (runFrom ((Operation.cancel "ii").run Sample.env) Sample.strandedWorld).2.store ≠
      Sample.strandedWorld.store :=
  ⟨Sample.stranded_reached, Sample.stranded_error, Sample.stranded_changed⟩

theorem failed_midway_cancel : Sample.strandedWorld.store.Keyed ∧
    ∃ child parent link, Stranded
      (runFrom ((Operation.cancel "ii").run Sample.env) Sample.strandedWorld).2.store
      child parent link := by
  have ho := Sample.stranded_reached.orderly
  have hmidway := failed_midway Sample.env _ ho.keyed ho.fresh _ _ Sample.stranded_error
  exact ⟨ho.keyed, hmidway.resolve_left Sample.stranded_changed⟩

/-! ## from the end of an instance to its parents -/

theorem Climb.level_lt (h : Climb names maxLevel fuel child w result w') (hf : Family w)
    (hi : Has id i w) (hr : i.status ≠ .running) (hchanged : ¬ Has id i w') :
    i.nestingLevel < child.nestingLevel := by
  refine Nat.lt_of_not_le fun hl => hchanged ?_
  exact h.has_deep hf hr hl hi

structure Ends (names : Nat → String) (maxLevel : Nat) (w : World) (id : String) (j : Instance)
    (result : Except EngineError Unit) (w' : World) (fuel : Nat) (u : World) : Prop where
  climb : Climb names maxLevel fuel j u result w'
  stored : Has id j u
  keyed : u.store.Keyed
  family : Family u
  enough : (shallow u j.nestingLevel).card < fuel
  kept : Kept w.store u.store
  links : ∀ other link, w.store.getLink? other = some link → u.store.getLink? other = some link
  above : ∀ other i, Has other i w → i.status ≠ .running → i.nestingLevel < j.nestingLevel →
    Has other i u

theorem Ends.origin (h : Ends names maxLevel w id j result w' fuel u) (hi : Has id i w) :
    i.SameOrigin j := by
  obtain ⟨k, hk, hsame⟩ := h.kept.instances _ i hi
  cases Option.some.inj (hk.symm.trans h.stored)
  exact hsame

theorem Ends.after_deed (h : Ends names maxLevel v id j result w' fuel u)
    (hd : Deed names maxLevel act w v) (hs : act.subject? = some other) (hi : Has other i v)
    (hl : j.nestingLevel ≤ i.nestingLevel) : Ends names maxLevel w id j result w' fuel u := by
  refine ⟨h.climb, h.stored, h.keyed, h.family, h.enough, hd.kept.trans h.kept,
    fun other' link hlink => h.links other' link (hd.getLink? hlink), fun other' k hk hr hlk => ?_⟩
  have hne : act.subject? ≠ some other' := by
    rintro hs'
    cases Option.some.inj (hs.symm.trans hs')
    obtain ⟨k', hk', hsame⟩ := hd.kept.instances _ k hk
    cases Option.some.inj (hk'.symm.trans hi)
    rw [hsame.nestingLevel] at hl
    omega
  exact h.above other' k (hd.has_other hr hne hk) hr hlk

theorem Ends.of_climb (hc : Climb names maxLevel fuel j w result w') (hj : Has id j w)
    (hk : w.store.Keyed) (hf : Family w) (hfuel : (shallow w j.nestingLevel).card < fuel) :
    Ends names maxLevel w id j result w' fuel w :=
  ⟨hc, hj, hk, hf, hfuel, Kept.refl _, fun _ _ h => h, fun _ _ h _ _ => h⟩

/-- An instance that ends on a climb ends before its own parents are told.  The induction is that of
the climb; as long as it is below the instance, it leaves alone what is above. -/
theorem Climb.ends (h : Climb names maxLevel fuel child w result w') (hk : w.store.Keyed)
    (hf : Family w) (hfuel : (shallow w child.nestingLevel).card < fuel) (hc : Has id c w)
    (hr : c.status ≠ .running) (hc' : Has id c' w') (hne : c' ≠ c) :
    ∃ fuel u, Ends names maxLevel w id c' result w' fuel u := by
  have hchanged : ¬ Has id c w' := fun hc => hne (Option.some.inj (hc'.symm.trans hc))
  induction h with
  | exhausted => exact absurd hc hchanged
  | ended => exact absurd hc hchanged
  | refused _ _ hidle => exact absurd (hc.quiet hidle.quiet) hchanged
  | @up fuel child parent j link w u w' result hw hdeed hj hclimb ih =>
    have hlevel := hw.level hf
    have hfuel' : (shallow u j.nestingLevel).card < fuel :=
      Nat.lt_of_lt_of_le (hdeed.shallow_wake_lt hw.parent hlevel hj) (Nat.le_of_lt_succ hfuel)
    have hkeyed := hdeed.keyed hk
    have hfamily := hdeed.family hf
    by_cases hid : link.parentId = id
    · subst hid
      cases Option.some.inj ((hclimb.has_start hj).symm.trans hc')
      have hends := Ends.of_climb hclimb hj hkeyed hfamily hfuel'
      exact ⟨fuel, u, hends.after_deed hdeed rfl hj (Nat.le_refl _)⟩
    · have hcu : Has id c u := hdeed.has_other hr (fun he => hid (Option.some.inj he)) hc
      have hlt : c.nestingLevel < j.nestingLevel := hclimb.level_lt hfamily hcu hr hchanged
      obtain ⟨fuel', u', hends⟩ := ih hkeyed hfamily hfuel' hcu hc' hchanged
      have hle : c'.nestingLevel ≤ j.nestingLevel := by
        rw [(hends.origin hcu).nestingLevel]
        exact Nat.le_of_lt hlt
      exact ⟨fuel', u', hends.after_deed hdeed rfl hj hle⟩

theorem Deed.ends (hd : Deed names maxLevel act w u) (hs : act.subject? = some other)
    (hi : Has other i u) (h : Climb names maxLevel (u.store.instances.length + 1) i u result w')
    (hk : w.store.Keyed) (hf : Family w) (hc : Has id c w) (hr : c.status ≠ .running)
    (hc' : Has id c' w') (hne : c' ≠ c) :
    ∃ fuel u, Ends names maxLevel w id c' result w' fuel u := by
  have hchanged : ¬ Has id c w' := fun hc => hne (Option.some.inj (hc'.symm.trans hc))
  have hkeyed := hd.keyed hk
  have hfamily := hd.family hf
  have hfuel : (shallow u i.nestingLevel).card < u.store.instances.length + 1 :=
    Nat.lt_succ_of_le (card_shallow_le u i.nestingLevel)
  by_cases hid : other = id
  · subst hid
    cases Option.some.inj ((h.has_start hi).symm.trans hc')
    have hends := Ends.of_climb h hi hkeyed hfamily hfuel
    exact ⟨_, u, hends.after_deed hd hs hi (Nat.le_refl _)⟩
  · have hcu : Has id c u :=
      hd.has_other hr (fun he => hid (Option.some.inj (hs.symm.trans he))) hc
    have hlt : c.nestingLevel < i.nestingLevel := h.level_lt hfamily hcu hr hchanged
    obtain ⟨fuel', u', hends⟩ := h.ends hkeyed hfamily hfuel hcu hr hc' hne
    have hle : c'.nestingLevel ≤ i.nestingLevel := by
      rw [(hends.origin hcu).nestingLevel]
      exact Nat.le_of_lt hlt
    exact ⟨fuel', u', hends.after_deed hd hs hi hle⟩

theorem Deed.status_of_pause (h : Deed names maxLevel (.pause id) w w') (hi : Has id i w') :
    i.status = .paused := by
  obtain ⟨v, scene, _, hopening, hmoves⟩ := h
  cases hopening with
  | pause now =>
    obtain ⟨_, hquiet⟩ := Moves.quiet_of_nil hmoves rfl
    have hstored := (hquiet.getInstance? _).trans (World.getInstance?_put_self rfl)
    cases Option.some.inj (hstored.symm.trans hi)
    rfl

/-- **An operation that ends an instance ends it before it tells its parents.** -/
theorem Performed.ends (h : Performed names maxLevel w op result w') (hk : w.store.Keyed)
    (hf : Family w) (hw : Walked ⟨[], w⟩) (hc : Has id c w) (ha : c.status.isTerminal = false)
    (hc' : Has id c' w') (ht : c'.status.isTerminal = true) :
    ∃ fuel u, Ends names maxLevel w id c' result w' fuel u := by
  have hr : c.status ≠ .running := hw.at_rest hc
  have hne : c' ≠ c := by
    rintro rfl
    exact Bool.noConfusion (ht.symm.trans ha)
  have hchanged : ¬ Has id c w' := fun hc => hne (Option.some.inj (hc'.symm.trans hc))
  cases h with
  | refused hidle => exact absurd (hc.quiet hidle.quiet) hchanged
  | started hd => exact absurd (hd.has_other hr nofun hc) hchanged
  | resumed hd hj hclimb => exact hd.ends rfl hj hclimb hk hf hc hr hc' hne
  | held hidle => exact absurd (hc.quiet hidle.quiet) hchanged
  | @paused other _ hd =>
    by_cases hid : other = id
    · subst hid
      rw [hd.status_of_pause hc'] at ht
      cases ht
    · exact absurd (hd.has_other hr (fun he => hid (Option.some.inj he)) hc) hchanged
  | cancelled hd hj hclimb => exact hd.ends rfl hj hclimb hk hf hc hr hc' hne
  | @stepped other nodeId k d n o vars t t' now v _ hstored hid _ _ hm _ hq =>
    -- a single step leaves the state of its instance as it is
    have hv : Has id c v := Moves.has_resting hm hr hc
    by_cases he : id = other
    · subst he
      cases Option.some.inj (hstored.symm.trans hc)
      have hput : Has id ((recordStep c n o vars t t').written now) w' :=
        Has.quiet (World.getInstance?_put_self hid) hq
      cases Option.some.inj (hput.symm.trans hc')
      exact Bool.noConfusion (ht.symm.trans ha)
    · have hother : id ≠ ((recordStep k n o vars t t').written now).id := fun he' =>
        he (he'.trans hid)
      exact absurd ((hv.put_of_ne hother).quiet hq) hchanged

/-! ## children that end -/

theorem Climb.told (h : Climb names maxLevel fuel child w result w') (hid : child.id = id)
    (hl : w.store.getLink? id = some link)
    (hp : Has link.parentId parent w) (hparked : parent.isParkedOn id = false) :
    w'.store = w.store := by
  have hnone : ∀ p l, ¬ WaitedFor w.store child p l := by
    intro p l hw
    have hlink := hw.linked
    rw [hid, hl] at hlink
    cases hlink
    cases Option.some.inj (hw.parent.symm.trans hp)
    have hyes := hw.parked
    rw [hid, hparked] at hyes
    cases hyes
  cases h with
  | exhausted => rfl
  | ended => rfl
  | refused hw => exact absurd hw (hnone _ _)
  | up hw => exact absurd hw (hnone _ _)

/-- **A child that ends changes its parent only if the parent stands still until the id of the child
is reported.**  A parent that waits for another id, or for nothing, is left as it is. -/
theorem parent_told (env : Env) (w : World) (h : Reached env w) (c : Call) (id : String)
    (child child' parent parent' : Instance) (link : ChildLink)
    (hl : w.store.getLink? id = some link) (hc : w.store.getInstance? id = some child)
    (ha : child.status.isTerminal = false)
    (hc' : (c.from env w).store.getInstance? id = some child')
    (ht : child'.status.isTerminal = true)
    (hp : w.store.getInstance? link.parentId = some parent)
    (hp' : (c.from env w).store.getInstance? link.parentId = some parent') :
    parent' = parent ∨ parent.isParkedOn id = true := by
  cases hparked : parent.isParkedOn id with
  | true => exact .inr rfl
  | false =>
    left
    have hfamily := h.family
    obtain ⟨fuel, u, hends⟩ :=
      (c.performed env h.orderly).ends h.orderly.keyed hfamily h.walked hc ha hc' ht
    obtain ⟨p, hp₀, hlevel⟩ := (hfamily id link child hl hc).parent
    cases Option.some.inj (hp₀.symm.trans hp)
    have hlt : parent.nestingLevel < child'.nestingLevel := by
      rw [(hends.origin hc).nestingLevel, hlevel]
      exact Nat.lt_succ_self _
    have hpu : Has link.parentId parent u := hends.above _ parent hp (h.walked.at_rest hp) hlt
    have hid : child'.id = id := by
      rw [(hends.origin hc).id]
      exact h.orderly.keyed _ _ hc
    have hsame := hends.climb.told hid (hends.links _ _ hl) hpu hparked
    rw [hsame] at hp'
    exact Option.some.inj (hp'.symm.trans hpu)

namespace Sample

/-- a workflow that waits for an event behind its child, under a name that is the id of the child -/
def listener : Definition where
  id := "listener"
  name := "listener"
  description := none
  status := .published
  version := 1
  subprocessCompatible := true
  nodes := Sample.parent.nodes ++ [⟨"listen", .event, none,
    .obj [("event_name", .str "ii"), ("event_type", .str "receive")]⟩]
  edges := Sample.parent.edges ++ [⟨"behind", "work", "listen", none, none⟩]

/-- the parent was resumed behind its child, and waits for the event -/
def listeningWorld : World :=
  after Sample.env { world with store := world.store.saveWorkflow listener }
    [⟨⟨0, 0⟩, .start (.of "listener")⟩, ⟨⟨1, 0⟩, .resume "i" "work" none⟩]

/-- the child is cancelled -/
def cancelling : Call := ⟨⟨2, 0⟩, .cancel "ii"⟩

theorem listening : Reached Sample.env listeningWorld :=
  ((Reached.empty rfl fresh).saveWorkflow listener).after _

theorem listening_link : (listeningWorld.store.getLink? "ii").map (·.parentId) = some "i" := by
  decide +kernel

theorem listening_child : (listeningWorld.store.getInstance? "ii").map (·.status) = some .waiting ∧
    ((cancelling.from Sample.env listeningWorld).store.getInstance? "ii").map (·.status) =
      some .cancelled := by
  refine ⟨?_, ?_⟩
  all_goals decide +kernel

theorem listening_parent :
    (listeningWorld.store.getInstance? "i").map (fun p => (p.status, p.waitingFor.map (·.kind))) =
      some (.waiting, some .event) ∧
    ((cancelling.from Sample.env listeningWorld).store.getInstance? "i").map (·.status) =
      some .failed := by
  refine ⟨?_, ?_⟩
  all_goals decide +kernel

end Sample

/-- a parent that waits for an event, and fails with the child whose id is the name of the event -/
theorem told_of_event : Reached Sample.env Sample.listeningWorld ∧
    (Sample.listeningWorld.store.getLink? "ii").map (·.parentId) = some "i" ∧
    ((Sample.listeningWorld.store.getInstance? "ii").map (·.status) = some .waiting ∧
      ((Sample.cancelling.from Sample.env Sample.listeningWorld).store.getInstance? "ii").map
        (·.status) = some .cancelled) ∧
    (Sample.listeningWorld.store.getInstance? "i").map
        (fun p => (p.status, p.waitingFor.map (·.kind))) = some (.waiting, some .event) ∧
      ((Sample.cancelling.from Sample.env Sample.listeningWorld).store.getInstance? "i").map
        (·.status) = some .failed :=
  ⟨Sample.listening, Sample.listening_link, Sample.listening_child, Sample.listening_parent⟩

theorem parent_told_event : ∃ parent, Sample.listeningWorld.store.getInstance? "i" = some parent ∧
    parent.isParkedOn "ii" = true := by
  obtain ⟨link, hl, hparent⟩ := Option.map_eq_some_iff.mp Sample.listening_link
  obtain ⟨child, hc, ha⟩ := Option.map_eq_some_iff.mp Sample.listening_child.1
  obtain ⟨child', hc', ht⟩ := Option.map_eq_some_iff.mp Sample.listening_child.2
  obtain ⟨parent, hp, hwaits⟩ := Option.map_eq_some_iff.mp Sample.listening_parent.1
  obtain ⟨parent', hp', hfails⟩ := Option.map_eq_some_iff.mp Sample.listening_parent.2
  have hwaiting : parent.status = .waiting := congrArg Prod.fst hwaits
  have hchanged : parent' ≠ parent := by
    rintro rfl
    rw [hwaiting] at hfails
    cases hfails
  refine ⟨parent, hp, ?_⟩
  have htold := parent_told Sample.env Sample.listeningWorld Sample.listening Sample.cancelling "ii"
    child child' parent parent' link hl hc (by rw [ha]; rfl) hc' (by rw [ht]; rfl)
    (by rw [hparent]; exact hp) (by rw [hparent]; exact hp')
  exact htold.resolve_left hchanged

end Workflows.Engine
