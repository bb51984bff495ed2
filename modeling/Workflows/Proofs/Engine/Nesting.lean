import Workflows.Proofs.Engine.Family

/-!
# Nesting

* `Ranked`        a child, its link and its stored parent agree on their levels
* `Nested`        a link joins a stored parent and a stored child, one level apart
* `WithinLimit`   no stored instance is below the greatest level
* `Accounted`     every link that was added is stored with its child, under its id

Main statements: a node at the greatest level starts no child (`execute_at_limit`), and after any
number of calls instances and links are nested as they should be (`nested_after`).
-/

namespace Workflows

/-! ## nodes at the greatest level -/

namespace Node
open NodeRun
variable {α : Type} {c : NodeContext} {n : Node}

/-- A computation that only reads, or is refused. -/
def Idles (x : NodeRun α) (s : Session) : Prop :=
  (∃ a, runFrom x s = (.ok a, s)) ∨ ∃ e, runFrom x s = (.error e, s)

theorem settings_idles (n : Node) (decode : Decoder α) (s : Session) :
    Idles (n.settings decode) s := by
  unfold settings
  split
  · exact .inl ⟨_, rfl⟩
  · exact .inr ⟨_, rfl⟩

theorem demand_idles (value : Option α) (reason : String) (s : Session) :
    Idles (demand value reason) s := by
  cases value with
  | some a => exact .inl ⟨a, rfl⟩
  | none => exact .inr ⟨_, rfl⟩

theorem childLevel_at_limit {max level : Nat} (h : max ≤ level) :
    childLevel max level = .error (.nestingLimit (level + 1) max) := by
  unfold childLevel
  rw [if_neg]
  omega

/-- a child is refused before anything is validated, and before it is started -/
theorem startChild_at_limit (launcher : Launcher)
    (h : c.env.settings.maxNestingLevel ≤ c.nestingLevel) (s : Session) :
    ∃ e, runFrom (startChild c launcher n) s = (.error e, s) := by
  unfold startChild
  rcases settings_idles n SubprocessSettings.decode s with ⟨settings, hsettings⟩ | ⟨e, he⟩
  · rw [runFrom_bind_ok hsettings]
    rcases demand_idles (settings.workflowId.filter (· ≠ ""))
      ("No workflow configured for subprocess " ++ n.id) s with ⟨workflowId, hid⟩ | ⟨e, he⟩
    · rw [runFrom_bind_ok hid, childLevel_at_limit h]
      exact ⟨_, rfl⟩
    · rw [runFrom_bind_error he]
      exact ⟨e, rfl⟩
  · rw [runFrom_bind_error he]
    exact ⟨e, rfl⟩

theorem subprocess_at_limit (h : c.env.settings.maxNestingLevel ≤ c.nestingLevel) (s : Session) :
    ∃ e, runFrom (n.subprocess c) s = (.error e, s) := by
  unfold subprocess
  cases c.launcher with
  | none => exact ⟨_, rfl⟩
  | some launcher =>
    obtain ⟨e, he⟩ := startChild_at_limit (n := n) launcher h s
    refine ⟨e, ?_⟩
    simp only
    rw [runFrom_bind_error he]

/-- **A subprocess node at the greatest level fails**, and leaves everything as it is. -/
theorem execute_at_limit (hk : n.kind = .subprocess)
    (h : c.env.settings.maxNestingLevel ≤ c.nestingLevel) (s : Session) :
    ((n.execute c).run s).1.status = .failed ∧ ((n.execute c).run s).2 = s := by
  have hh : n.handle c = n.subprocess c := by rw [handle, hk]
  obtain ⟨e, he⟩ := subprocess_at_limit (n := n) h s
  rw [execute_run, hh, he]
  exact ⟨rfl, rfl⟩

end Node

namespace Engine
variable {names : Nat → String} {maxLevel : Nat} {w w' : World} {op : Operation}
  {result : Except EngineError Unit}

/-! ## levels of links -/

structure Ranked (st : Store) (child : Instance) (link : ChildLink) : Prop where
  kin : Kin st child link
  level : child.nestingLevel = link.nestingLevel

theorem Ranked.lasting : Lasting Ranked := by
  intro s t child child' link h hkept hsame
  exact ⟨Kin.lasting _ _ _ _ _ h.kin hkept hsame, hsame.nestingLevel.trans h.level⟩

theorem Ranked.given : Given Ranked := by
  intro fs d w p l child h hp hc
  refine ⟨Kin.given h hp hc, ?_⟩
  obtain ⟨child', hchild', _, hlevel⟩ := h.child
  cases Option.some.inj (hchild'.symm.trans hc)
  exact hlevel.trans h.level.symm

/-- A link of two stored instances, one level apart. -/
structure Nested (st : Store) (id : String) (link : ChildLink) : Prop where
  childId : link.childId = id
  ends : ∃ parent child, st.getInstance? link.parentId = some parent ∧
    parent.id = link.parentId ∧ st.getInstance? id = some child ∧ child.id = id ∧
    child.parentId = some parent.id ∧ child.nestingLevel = link.nestingLevel ∧
    link.nestingLevel = parent.nestingLevel + 1

theorem Ranked.nested {st : Store} {child : Instance} {link : ChildLink} {id : String}
    (h : Ranked st child link) (hk : st.Keyed) (hid : link.childId = id)
    (hc : st.getInstance? id = some child) : Nested st id link := by
  obtain ⟨parent, hp, hlevel⟩ := h.kin.parent
  have hparent : parent.id = link.parentId := hk _ _ hp
  have hrank : link.nestingLevel = parent.nestingLevel + 1 := h.level.symm.trans hlevel
  refine ⟨hid, parent, child, hp, hparent, hc, hk _ _ hc, ?_, h.level, hrank⟩
  rw [hparent]
  exact h.kin.parentId

/-! ## kept by every write -/

def WithinLimit (maxLevel : Nat) (w : World) : Prop :=
  ∀ id i, w.store.getInstance? id = some i → i.nestingLevel ≤ maxLevel

theorem Writes.withinLimit (h : Writes names maxLevel w w') (hs : WithinLimit maxLevel w) :
    WithinLimit maxLevel w' := by
  intro id i hi
  cases h with
  | quiet h => exact hs id i ((h.getInstance? id).symm.trans hi)
  | @create r d j h =>
    rw [World.started_store, World.getInstance?_put] at hi
    split at hi
    · cases hi
      rw [h.nestingLevel]
      exact h.level
    · exact hs id i hi
  | link => exact hs id i hi
  | record hj ho hstore =>
    rw [hstore] at hi
    obtain ⟨k, hk, hsame⟩ := origin_of_put hj ho hi
    rw [hsame.nestingLevel]
    exact hs id k hk

/-- Every link is one of an earlier store, or stored with its child and under its id. -/
def Accounted (old : Store) (w : World) : Prop :=
  ∀ id link, w.store.getLink? id = some link →
    old.getLink? id = some link ∨
      link.childId = id ∧ ∃ child, w.store.getInstance? id = some child

theorem Writes.accounted {old : Store} (h : Writes names maxLevel w w') (hb : Accounted old w) :
    Accounted old w' := by
  intro id link hlink
  have hkept := h.kept
  -- a link that was stored before the write
  have hstored : w.store.getLink? id = some link → old.getLink? id = some link ∨
      link.childId = id ∧ ∃ child, w'.store.getInstance? id = some child := by
    intro hl
    rcases hb id link hl with hold | ⟨hid, child, hc⟩
    · exact .inl hold
    · obtain ⟨child', hc', _⟩ := hkept.instances id child hc
      exact .inr ⟨hid, child', hc'⟩
  cases h with
  | quiet h => exact hstored ((h.getLink? id).symm.trans hlink)
  | create => exact hstored hlink
  | @link l child hc _ =>
    rw [World.getLink?_link] at hlink
    split at hlink
    · next he =>
      cases hlink
      exact .inr ⟨he.symm, child, he ▸ hc⟩
    · exact hstored hlink
  | record _ _ hs =>
    rw [hs] at hlink
    exact hstored hlink

/-! ## all operations -/

structure WellNested (maxLevel : Nat) (old : Store) (w : World) : Prop where
  within : WithinLimit maxLevel w
  accounted : Accounted old w
  ranked : EachLinked Ranked w

theorem Performed.wellNested {old : Store} (h : Performed names maxLevel w op result w')
    (ho : WellNested maxLevel old w) : WellNested maxLevel old w' :=
  ⟨h.induct ho.within Writes.withinLimit, h.induct ho.accounted Writes.accounted,
    h.eachLinked Ranked.lasting Ranked.given ho.ranked⟩

theorem wellNested_of_empty (maxLevel : Nat) (hw : w.store.instances = []) :
    WellNested maxLevel w.store w := by
  refine ⟨fun id i hi => ?_, fun _ _ hlink => .inl hlink, fun id link child _ hc => ?_⟩
  · exact absurd hi (not_stored_of_empty hw)
  · exact absurd hc (not_stored_of_empty hw)

/-- **Instances and links are nested.**  No instance is below the greatest level, every link that
was added joins a stored parent and a stored child one level below it, and a subprocess node at the
greatest level fails and changes nothing. -/
theorem nested_after (env : Env) (w : World) (hmax : env.settings.maxNestingLevel < UInt32.size - 1)
    (hw : w.store.instances = []) (hf : Fresh env.idName w) (calls : List Call) :
    (∀ id i, (after env w calls).store.getInstance? id = some i →
      i.nestingLevel ≤ env.settings.maxNestingLevel ∧ i.nestingLevel + 1 < UInt32.size) ∧
    (∀ id link, (after env w calls).store.getLink? id = some link →
      w.store.getLink? id = none → Nested (after env w calls).store id link) ∧
    ∀ (c : NodeContext) (n : Node) (s : Session), n.kind = .subprocess →
      c.nestingLevel = c.env.settings.maxNestingLevel →
      ((n.execute c).run s).1.status = .failed ∧ ((n.execute c).run s).2 = s := by
  have ho : Orderly env.idName w := orderly_of_empty hw hf
  have hnested : WellNested env.settings.maxNestingLevel w.store (after env w calls) :=
    after_induct calls ho (wellNested_of_empty _ hw) fun _ hp hv => hp.wellNested hv
  have hkeyed := (after_orderly calls ho).keyed
  refine ⟨fun id i hi => ?_, fun id link hlink hnew => ?_, fun c n s hk hl => ?_⟩
  · have hle := hnested.within id i hi
    exact ⟨hle, by omega⟩
  · rcases hnested.accounted id link hlink with hold | ⟨hid, child, hc⟩
    · rw [hnew] at hold
      cases hold
    · exact (hnested.ranked id link child hlink hc).nested hkeyed hid hc
  · exact Node.execute_at_limit hk (Nat.le_of_eq hl.symm) s

/-- a child at level one, below its parent -/
theorem nested_after_start :
    ∃ link, (after Sample.env Sample.world Sample.calls).store.getLink? "ii" = some link ∧
      link.parentId = "i" ∧
      Nested (after Sample.env Sample.world Sample.calls).store "ii" link := by
  have hlinked : ((after Sample.env Sample.world Sample.calls).store.getLink? "ii").map
      (·.parentId) = some "i" := by
    decide +kernel
  obtain ⟨link, hlink, hp⟩ := Option.map_eq_some_iff.mp hlinked
  have hall := nested_after Sample.env Sample.world (by decide) rfl Sample.fresh Sample.calls
  exact ⟨link, hlink, hp, hall.2.1 "ii" link hlink rfl⟩

/-- a link that joins nothing -/
def Sample.strayLink : ChildLink := ⟨"nobody", "work", "stray", [], false, 1, ⟨0, 0⟩⟩

/-- Calls leave a link alone that was stored before them, though it joins nothing. -/
theorem stray_link_stays : ¬ ∀ (env : Env) (w : World) (calls : List Call),
    env.settings.maxNestingLevel < UInt32.size - 1 → w.store.instances = [] → Fresh env.idName w →
      ∀ id link, (after env w calls).store.getLink? id = some link →
        Nested (after env w calls).store id link := by
  intro hall
  have hfresh : Fresh Sample.names (Sample.world.link Sample.strayLink) := by
    refine ⟨Sample.names_injective, fun _ _ => rfl, fun n _ => ?_⟩
    rw [World.getLink?_link, if_neg]
    · rfl
    · intro he
      have hlist : List.replicate (n + 1) 'i' = _ := String.ofList_injective (he.trans
        (String.ofList_toList (s := "stray")).symm)
      rw [List.replicate_succ] at hlist
      exact absurd (List.cons.inj hlist).1 (by decide)
  have hstays : (after Sample.env (Sample.world.link Sample.strayLink) Sample.calls).store.getLink?
      "stray" = some Sample.strayLink := by
    decide +kernel
  obtain ⟨parent, _, hp, _⟩ := (hall Sample.env _ Sample.calls (by decide) rfl hfresh
    "stray" _ hstays).ends
  have hnone : (after Sample.env (Sample.world.link Sample.strayLink)
      Sample.calls).store.getInstance? "nobody" = none := by
    decide +kernel
  cases hnone.symm.trans hp

end Engine
end Workflows
