import Workflows.Proofs.Engine.Safeguard
import Workflows.Proofs.Store.Saved

/-!
# Pinned versions

The token of a request is resolved when its instance is started.  The instance keeps a label, and
looks its definition up by the label from then on.

* `Selected`      what a request selects
* `Turn`          a call of the engine, or a definition or version that is saved
* `Unused`        no id that is still to be generated is in use
* `Grown`         what an operation adds to the instances of a store
* `Tracked`       an instance that keeps what was fixed at its start

Main statement: an instance with a label has the definition that its start has selected, whatever
is done later but to save another version under the label; an instance without one has the live
definition (`definition_pinned`).
-/

namespace Workflows

/-! ## requests -/

/-- What a request selects: the live definition, or a version with its own label. -/
structure Selected (s : Store) (r : StartRequest) (d : Definition) (pinned : Option String) :
    Prop where
  requested : Engine.requested? s r = some (d, pinned)
  live : pinned = none → s.getWorkflow? r.workflowId = some d
  version : ∀ label, pinned = some label →
    ∃ v ∈ s.listVersions r.workflowId, v.label = label ∧ v.definition = d
  /-- the word for published versions selects one that no other is younger than -/
  published : r.workflowVersion = some publishedToken →
    ∃ v ∈ s.listVersions r.workflowId, pinned = some v.label ∧ v.definition = d ∧
      v.status = .published ∧ ∀ x ∈ s.listVersions r.workflowId, x.status = .published →
        v.createdAt.before x.createdAt = false

theorem selected_of_requested {s : Store} {r : StartRequest} {d : Definition}
    {pinned : Option String} (h : Engine.requested? s r = some (d, pinned)) :
    Selected s r d pinned := by
  have hcases : (r.workflowVersion ≠ some publishedToken ∧ pinned = none ∧
        s.getWorkflow? r.workflowId = some d) ∨
      ∃ v token, r.workflowVersion = some token ∧ pinned = some v.label ∧ v.definition = d ∧
        Version.select? (s.listVersions r.workflowId) token = some v := by
    unfold Engine.requested? at h
    split at h
    · next token ht =>
      unfold Store.resolvePinned? at h
      split at h
      · next hlive =>
        obtain ⟨d', hd, he⟩ := Option.map_eq_some_iff.mp h
        cases he
        refine .inl ⟨?_, rfl, hd⟩
        rw [ht]
        rintro hp
        cases hp
        exact absurd hlive (by decide)
      · obtain ⟨v, hv, he⟩ := Option.map_eq_some_iff.mp h
        cases he
        exact .inr ⟨v, token, ht, rfl, rfl, hv⟩
    · next ht =>
      obtain ⟨d', hd, he⟩ := Option.map_eq_some_iff.mp h
      cases he
      exact .inl ⟨by rw [ht]; nofun, rfl, hd⟩
  rcases hcases with ⟨hp, rfl, hd⟩ | ⟨v, token, ht, rfl, rfl, hv⟩
  · exact ⟨h, fun _ => hd, nofun, fun hr => absurd hr hp⟩
  · refine ⟨h, nofun, fun label hlabel => ?_, fun hp => ?_⟩
    · exact ⟨v, Version.mem_of_select hv, Option.some.inj hlabel, rfl⟩
    · rw [ht] at hp
      cases hp
      rw [Version.select?, if_pos rfl] at hv
      obtain ⟨hmem, hyoungest⟩ := Version.newest?_youngest hv
      obtain ⟨hmem, hstatus⟩ := List.mem_filter.mp hmem
      refine ⟨v, hmem, rfl, rfl, of_decide_eq_true hstatus, fun x hx hpublished => ?_⟩
      exact hyoungest x (List.mem_filter.mpr ⟨hx, decide_eq_true hpublished⟩)

/-- a store with the same definitions and versions -/
structure Store.SameCatalog (s t : Store) : Prop where
  workflows : t.workflows = s.workflows
  versions : t.versions = s.versions

theorem Store.SameCatalog.requested? {s t : Store} (h : s.SameCatalog t) (r : StartRequest) :
    Engine.requested? t r = Engine.requested? s r := by
  have hget : t.getWorkflow? r.workflowId = s.getWorkflow? r.workflowId := by
    rw [getWorkflow?, getWorkflow?, h.workflows]
  have hresolve : ∀ token, t.resolvePinned? r.workflowId token =
      s.resolvePinned? r.workflowId token := by
    intro token
    rw [resolvePinned?, resolvePinned?, hget, listVersions_of_versions h.versions]
  unfold Engine.requested?
  rw [hget]
  split
  · exact hresolve _
  · rfl

theorem Store.SameCatalog.of_core {s t u : Store} (h : s.SameCatalog t) (hu : u.core = t.core) :
    s.SameCatalog u :=
  ⟨(congrArg Core.workflows hu).trans h.workflows, (congrArg Core.versions hu).trans h.versions⟩

namespace Engine
variable {env : Env} {names : Nat → String} {w w' : World} {i j : Instance}

/-- The engine saves no definitions and no versions. -/
theorem catalog_safeguard (env : Env) (s : Store) :
    Safeguard env (fun _ w => s.SameCatalog w.store) (fun _ => True) where
  quiet h hcore _ _ := h.of_core hcore
  read _ _ := trivial
  origin _ _ := trivial
  put h _ _ := ⟨h.workflows, h.versions⟩
  create h _ := ⟨trivial, h.workflows, h.versions⟩
  link h _ := ⟨h.workflows, h.versions⟩
  release h := h
  acquire h _ := h
  knock h _ := h

theorem Call.sameCatalog (env : Env) (w : World) (c : Call) :
    w.store.SameCatalog (c.from env w).store :=
  ((catalog_safeguard { env with epoch := c.time } w.store).run ⟨rfl, rfl⟩ c.operation).kept

/-! ## new instances -/

/-- No id that is still to be generated is in use, not even in a record under another id. -/
structure Unused (names : Nat → String) (w : World) : Prop extends Fresh names w where
  unnamed : ∀ n, w.ids ≤ n → ∀ key i, w.store.getInstance? key = some i → i.id ≠ names n

theorem Orderly.unused (ho : Orderly names w) : Unused names w := by
  refine ⟨ho.fresh, fun n hn key i hi hid => ?_⟩
  have hkey : key = names n := (ho.keyed key i hi).symm.trans hid
  rw [hkey, ho.fresh.unstored n hn] at hi
  cases hi

/-- a record of an instance that was started for a request -/
def MadeFor (s : Store) (i : Instance) : Prop :=
  ∃ r d pinned now, requested? s r = some (d, pinned) ∧
    (newInstance r d pinned i.id now).SameOrigin i

/-- Instances and records since a world.  New instances have new ids, and records are written under
their own ids. -/
structure Grown (names : Nat → String) (start w : World) : Prop where
  fresh : Fresh names w
  ids : start.ids ≤ w.ids
  catalog : start.store.SameCatalog w.store
  old : ∀ key i, w.store.getInstance? key = some i →
    start.store.getInstance? key = some i ∨ i.id = key
  new : ∀ key i, w.store.getInstance? key = some i → start.store.getInstance? key = none →
    ∃ n, start.ids ≤ n ∧ n < w.ids ∧ key = names n
  made : ∀ key i, w.store.getInstance? key = some i → ∀ n, start.ids ≤ n → i.id = names n →
    MadeFor start.store i

theorem Grown.refl (hu : Unused names w) : Grown names w w := by
  refine ⟨hu.toFresh, Nat.le_refl _, ⟨rfl, rfl⟩, fun key i hi => .inl hi, fun key i hi hnone => ?_,
    fun key i hi n hn hid => absurd hid (hu.unnamed n hn key i hi)⟩
  cases hnone.symm.trans hi

/-- a change of the world that leaves instances alone -/
theorem Grown.weaken {start : World} (h : Grown names start w)
    (hi : ∀ key, w'.store.getInstance? key = w.store.getInstance? key) (hf : Fresh names w')
    (hids : w.ids ≤ w'.ids) (hc : start.store.SameCatalog w'.store) : Grown names start w' := by
  refine ⟨hf, Nat.le_trans h.ids hids, hc, fun key i hkey => ?_, fun key i hkey hnone => ?_,
    fun key i hkey => ?_⟩
  · rw [hi] at hkey
    exact h.old key i hkey
  · rw [hi] at hkey
    obtain ⟨n, hn, hlt, he⟩ := h.new key i hkey hnone
    exact ⟨n, hn, Nat.lt_of_lt_of_le hlt hids, he⟩
  · rw [hi] at hkey
    exact h.made key i hkey

/-- a record is written under its id -/
theorem Grown.write {start : World} (h : Grown names start w)
    (hw : ∀ key, w'.store.getInstance? key = (w.put i).store.getInstance? key)
    (hf : Fresh names w') (hids : w.ids ≤ w'.ids) (hc : start.store.SameCatalog w'.store)
    (hnew : start.store.getInstance? i.id = none →
      ∃ n, start.ids ≤ n ∧ n < w'.ids ∧ i.id = names n)
    (hmade : ∀ n, start.ids ≤ n → i.id = names n → MadeFor start.store i) :
    Grown names start w' := by
  refine ⟨hf, Nat.le_trans h.ids hids, hc, fun key j hj => ?_, fun key j hj hnone => ?_,
    fun key j hj => ?_⟩
  · rw [hw, World.getInstance?_put] at hj
    split at hj
    · next he =>
      cases hj
      exact .inr he.symm
    · exact h.old key j hj
  · rw [hw, World.getInstance?_put] at hj
    split at hj
    · next he =>
      rw [he] at hnone ⊢
      exact hnew hnone
    · obtain ⟨n, hn, hlt, he⟩ := h.new key j hj hnone
      exact ⟨n, hn, Nat.lt_of_lt_of_le hlt hids, he⟩
  · rw [hw, World.getInstance?_put] at hj
    split at hj
    · cases hj
      exact hmade
    · exact h.made key j hj

theorem grown_safeguard (env : Env) (start : World) :
    Safeguard env (fun _ => Grown env.idName start)
      (fun i => ∀ n, start.ids ≤ n → i.id = env.idName n → MadeFor start.store i) where
  quiet h hcore hids _ := h.weaken (Store.getInstance?_of_core hcore)
    (h.fresh.of_core hcore hids) hids (h.catalog.of_core hcore)
  read h hi := h.made _ _ hi
  origin hi hsame n hn hid := by
    obtain ⟨r, d, pinned, now, hd, hmade⟩ := hi n hn (hsame.id.symm.trans hid)
    refine ⟨r, d, pinned, now, hd, ?_⟩
    rw [hsame.id]
    exact hmade.trans hsame
  put h hi hstored := h.write (fun _ => rfl) (h.fresh.put hstored) (Nat.le_refl _)
    ⟨h.catalog.workflows, h.catalog.versions⟩ (h.new _ _ hstored) hi
  create {_ w r d pinned} h hd := by
    have hmade : MadeFor start.store (startedAs env r d pinned w) :=
      ⟨r, d, pinned, _, (h.catalog.requested? r).symm.trans hd, .refl _⟩
    exact ⟨fun _ _ _ => hmade, h.write (fun _ => rfl) (h.fresh.started r d pinned)
      (Nat.le_succ _) ⟨h.catalog.workflows, h.catalog.versions⟩
      (fun _ => ⟨w.ids, h.ids, Nat.lt_succ_self _, rfl⟩) fun _ _ _ => hmade⟩
  link h hl := h.weaken (fun _ => rfl) (h.fresh.link hl) (Nat.le_refl _)
    ⟨h.catalog.workflows, h.catalog.versions⟩
  release h := h.weaken (fun _ => rfl) (h.fresh.of_core rfl (Nat.le_refl _)) (Nat.le_refl _)
    h.catalog
  acquire h _ := h.weaken (fun _ => rfl) (h.fresh.of_core rfl (Nat.le_refl _)) (Nat.le_refl _)
    h.catalog
  knock h _ := h.weaken (fun _ => rfl) (h.fresh.of_core rfl (Nat.le_refl _)) (Nat.le_refl _)
    h.catalog

/-! ## one instance -/

/-- A record of an instance is stored under its id, and all records of it have one origin. -/
structure Tracked (names : Nat → String) (origin : Instance) (w : World) : Prop where
  fresh : Fresh names w
  spent : ∀ n, w.ids ≤ n → names n ≠ origin.id
  stored : ∃ i, w.store.getInstance? origin.id = some i ∧ origin.SameOrigin i
  records : ∀ key i, w.store.getInstance? key = some i → i.id = origin.id → origin.SameOrigin i

namespace Tracked
variable {origin : Instance}

/-- a change of the world that leaves instances alone -/
theorem weaken (h : Tracked names origin w)
    (hi : ∀ id, w'.store.getInstance? id = w.store.getInstance? id) (hf : Fresh names w')
    (hids : w.ids ≤ w'.ids) : Tracked names origin w' := by
  refine ⟨hf, fun n hn => h.spent n (Nat.le_trans hids hn), ?_, fun key i hkey => ?_⟩
  · rw [hi]
    exact h.stored
  · rw [hi] at hkey
    exact h.records key i hkey

/-- a record is written that is of this origin, if it is of this instance -/
theorem write (h : Tracked names origin w) (hi : i.id = origin.id → origin.SameOrigin i)
    (hw : ∀ id, w'.store.getInstance? id = (w.put i).store.getInstance? id) (hf : Fresh names w')
    (hids : w.ids ≤ w'.ids) : Tracked names origin w' := by
  refine ⟨hf, fun n hn => h.spent n (Nat.le_trans hids hn), ?_, fun key j hj => ?_⟩
  · rw [hw, World.getInstance?_put]
    split
    · next he => exact ⟨i, rfl, hi he.symm⟩
    · exact h.stored
  · rw [hw, World.getInstance?_put] at hj
    split at hj
    · cases hj
      exact hi
    · exact h.records key j hj

/-- another instance is started -/
theorem other (h : Tracked env.idName origin w) (r : StartRequest) (d : Definition)
    (pinned : Option String) : Tracked env.idName origin
      ((starting env w).started (startedAs env r d pinned w) d) :=
  h.write (fun hid => absurd hid (h.spent w.ids (Nat.le_refl _))) (fun _ => rfl)
    (h.fresh.started r d pinned) (Nat.le_succ _)

/-- an instance is started that has not been in the store -/
theorem started (hu : Unused env.idName w) (r : StartRequest) (d : Definition)
    (pinned : Option String) : Tracked env.idName (startedAs env r d pinned w)
      ((starting env w).started (startedAs env r d pinned w) d) := by
  refine ⟨hu.toFresh.started r d pinned, fun n hn he => ?_,
    ⟨_, World.getInstance?_put_self rfl, .refl _⟩, fun key j hj hid => ?_⟩
  · have hnw : n = w.ids := hu.distinct he
    have : w.ids + 1 ≤ n := hn
    omega
  · rw [World.started_store, World.getInstance?_put] at hj
    split at hj
    · cases hj
      exact .refl _
    · exact absurd hid (hu.unnamed w.ids (Nat.le_refl _) key j hj)

end Tracked

theorem tracked_safeguard (env : Env) (origin : Instance) :
    Safeguard env (fun _ => Tracked env.idName origin)
      (fun i => i.id = origin.id → origin.SameOrigin i) where
  quiet h hcore hids _ :=
    h.weaken (Store.getInstance?_of_core hcore) (h.fresh.of_core hcore hids) hids
  read h hi := h.records _ _ hi
  origin hi hsame hid := (hi (hsame.id.symm.trans hid)).trans hsame
  put h hi hstored := h.write hi (fun _ => rfl) (h.fresh.put hstored) (Nat.le_refl _)
  create h _ := ⟨fun hid => absurd hid (h.spent _ (Nat.le_refl _)), h.other _ _ _⟩
  link h hl := h.weaken (fun _ => rfl) (h.fresh.link hl) (Nat.le_refl _)
  release h := h.weaken (fun _ => rfl) (h.fresh.of_core rfl (Nat.le_refl _)) (Nat.le_refl _)
  acquire h _ := h.weaken (fun _ => rfl) (h.fresh.of_core rfl (Nat.le_refl _)) (Nat.le_refl _)
  knock h _ := h.weaken (fun _ => rfl) (h.fresh.of_core rfl (Nat.le_refl _)) (Nat.le_refl _)

/-- What is new in a store after an operation was started for a request. -/
theorem Grown.tracked {start : World} {id : String} (h : Grown names start w)
    (hu : Unused names start) (hi : w.store.getInstance? id = some i)
    (hnew : start.store.getInstance? id = none) :
    i.id = id ∧ MadeFor start.store i ∧ Tracked names i w := by
  have hid : i.id = id := by
    rcases h.old id i hi with hold | hid
    · cases hnew.symm.trans hold
    · exact hid
  obtain ⟨n, hn, hlt, hname⟩ := h.new id i hi hnew
  refine ⟨hid, h.made id i hi n hn (hid.trans hname), h.fresh, fun m hm he => ?_,
    ⟨i, ?_, .refl i⟩, fun key j hj hjd => ?_⟩
  · have hmn : m = n := h.fresh.distinct (he.trans (hid.trans hname))
    omega
  · rw [hid]
    exact hi
  · rcases h.old key j hj with hold | hkey
    · exact absurd (hjd.trans (hid.trans hname)) (hu.unnamed n hn key j hold)
    · have hsame : key = id := hkey.symm.trans (hjd.trans hid)
      rw [hsame, hi] at hj
      cases hj
      exact .refl i

/-- The instance of a start is the one that was made for its request. -/
theorem start_tracked (hu : Unused env.idName w) {r : StartRequest} {id : String}
    (hrun : (runFrom (start env r) w).1 = .ok id) :
    ∃ d pinned now, requested? w.store r = some (d, pinned) ∧
      Tracked env.idName (newInstance r d pinned id now) (runFrom (start env r) w).2 := by
  rcases start_cases env r w with ⟨e, hr⟩ | ⟨levels, d, pinned, hd, hr⟩
  · rw [hr] at hrun
    cases hrun
  · have hs := tracked_safeguard env (startedAs env r d pinned w)
    obtain ⟨_, hwalked⟩ := @Safeguard.startRun _ _ _ _ [] _ hs (hs.startWithin levels) r d pinned
      (Tracked.started hu r d pinned) fun _ => .refl _
    rw [hr] at hrun
    obtain rfl := eq_of_map_ok hrun
    rw [hr]
    exact ⟨d, pinned, _, hd, @Safeguard.release _ _ _ hs [] _ _ hwalked⟩

/-! ## turns -/

/-- A call of the engine, or a definition or a version that is saved. -/
inductive Turn where
  | saveWorkflow (d : Definition)
  | saveVersion (v : Version)
  | call (c : Call)

def Turn.from (env : Env) (w : World) : Turn → World
  | .saveWorkflow d => { w with store := w.store.saveWorkflow d }
  | .saveVersion v => { w with store := w.store.saveVersion v }
  | .call c => c.from env w

/-- the world after turns one after another -/
def afterTurns (env : Env) (w : World) (turns : List Turn) : World := turns.foldl (Turn.from env) w

/-- a turn that saves no version of a workflow under a label -/
def Turn.Spares (workflowId : String) (pinned : Option String) : Turn → Prop
  | .saveVersion v => v.workflowId = workflowId → pinned ≠ some v.label
  | _ => True

/-- The label of an instance, if it has one, selects a definition. -/
def Labels (s : Store) (origin : Instance) (d : Definition) : Prop :=
  ∀ label, origin.workflowVersion = some label → ∃ v, v.label = label ∧ v.definition = d ∧
    label ∉ Store.versionWords ∧ s.Pins origin.workflowId v

theorem Labels.of_versions {s t : Store} {origin : Instance} {d : Definition}
    (h : Labels s origin d) (ht : t.versions = s.versions) : Labels t origin d := by
  intro label hlabel
  obtain ⟨v, hv, hd, hw, hp⟩ := h label hlabel
  exact ⟨v, hv, hd, hw, hp.of_versions ht⟩

theorem Labels.of_requested {s : Store} {r : StartRequest} {d : Definition}
    {pinned : Option String} (hs : s.Shelf) (hr : requested? s r = some (d, pinned)) (id : String)
    (now : Instant) : Labels s (newInstance r d pinned id now) d := by
  intro label hlabel
  obtain ⟨v, hmem, hv, hd⟩ := (selected_of_requested hr).version label hlabel
  obtain ⟨hid, hword⟩ := hs.version r.workflowId v hmem
  refine ⟨v, hv, hd, hv ▸ hword, ?_⟩
  show s.Pins d.id v
  rw [← hd, hid]
  exact hs.pins hmem

/-- the label of an instance selects what it was started with -/
theorem Labels.definitionOf? {s : Store} {origin : Instance} {d : Definition}
    (h : Labels s origin d) : definitionOf? s origin = match origin.workflowVersion with
      | some _ => some d
      | none => s.getWorkflow? origin.workflowId := by
  unfold Engine.definitionOf?
  cases hlabel : origin.workflowVersion with
  | none => rfl
  | some label =>
    obtain ⟨v, rfl, rfl, hw, hp⟩ := h label hlabel
    exact hp.resolve? hw

/-- the records of an instance other than its first one -/
theorem Labels.of_sameOrigin {s : Store} {d : Definition} (h : Labels s i d)
    (ho : i.SameOrigin j) : Labels s j d := by
  intro label hlabel
  rw [ho.workflowVersion] at hlabel
  rw [ho.workflowId]
  exact h label hlabel

theorem Turn.keeps {origin : Instance} {d : Definition} (t : Turn)
    (ht : t.Spares origin.workflowId origin.workflowVersion) (h : Tracked env.idName origin w)
    (hl : Labels w.store origin d) : Tracked env.idName origin (t.from env w) ∧
      Labels (t.from env w).store origin d := by
  have hsaved : ∀ s : Store, s.instances = w.store.instances → s.links = w.store.links →
      Tracked env.idName origin { w with store := s } := by
    intro s hi hlinks
    refine h.weaken (fun id => ?_) ⟨h.fresh.distinct, fun n hn => ?_, fun n hn => ?_⟩
      (Nat.le_refl _)
    · exact congrArg (Dict.get? · id) hi
    · exact (congrArg (Dict.get? · (env.idName n)) hi).trans (h.fresh.unstored n hn)
    · exact (congrArg (Dict.get? · (env.idName n)) hlinks).trans (h.fresh.unlinked n hn)
  cases t with
  | saveWorkflow d' => exact ⟨hsaved _ rfl rfl, hl.of_versions rfl⟩
  | saveVersion x =>
    refine ⟨hsaved _ rfl rfl, fun label hlabel => ?_⟩
    obtain ⟨v, hv, hd, hw, hp⟩ := hl label hlabel
    refine ⟨v, hv, hd, hw, hp.saveVersion fun hx hxv => ht hx ?_⟩
    rw [hlabel, hxv, hv]
  | call c =>
    exact ⟨((tracked_safeguard { env with epoch := c.time } origin).run h c.operation).kept,
      hl.of_versions (c.sameCatalog env w).versions⟩

theorem afterTurns_keeps {origin : Instance} {d : Definition} (turns : List Turn)
    (ht : ∀ t ∈ turns, t.Spares origin.workflowId origin.workflowVersion)
    (h : Tracked env.idName origin w) (hl : Labels w.store origin d) :
    Tracked env.idName origin (afterTurns env w turns) ∧
      Labels (afterTurns env w turns).store origin d := by
  induction turns generalizing w with
  | nil => exact ⟨h, hl⟩
  | cons t turns ih =>
    obtain ⟨h', hl'⟩ := t.keeps (ht t List.mem_cons_self) h hl
    exact ih (fun t' ht' => ht t' (List.mem_cons_of_mem t ht')) h' hl'

/-! ## pinning -/

/-- what a call has started, and for which request -/
theorem started_by_call (hu : Unused env.idName w) (c : Call) {id : String}
    (hnew : w.store.getInstance? id = none)
    (hi : (c.from env w).store.getInstance? id = some i) :
    Tracked env.idName i (c.from env w) ∧ ∃ r d pinned now,
      requested? w.store r = some (d, pinned) ∧ (newInstance r d pinned id now).SameOrigin i ∧
      ∀ r', c.operation = .start r' →
        (runFrom (start { env with epoch := c.time } r') w).1 = .ok id → r' = r := by
  have hgrown : Grown env.idName w (c.from env w) :=
    ((grown_safeguard { env with epoch := c.time } w).run (.refl hu) c.operation).kept
  obtain ⟨hid, ⟨r, d, pinned, now, hd, hmade⟩, htracked⟩ := hgrown.tracked hu hi hnew
  rw [hid] at hmade
  refine ⟨htracked, ?_⟩
  by_cases htop : ∃ r', c.operation = .start r' ∧
      (runFrom (start { env with epoch := c.time } r') w).1 = .ok id
  · obtain ⟨r', hop, hrun⟩ := htop
    have hunused : Unused ({ env with epoch := c.time } : Env).idName w := hu
    obtain ⟨d', pinned', now', hd', ht⟩ := start_tracked hunused hrun
    refine ⟨r', d', pinned', now', hd', ?_, fun r'' hop' _ => ?_⟩
    · have hfrom : c.from env w = (runFrom (start { env with epoch := c.time } r') w).2 := by
        have hvoid : runFrom (c.operation.run { env with epoch := c.time }) w =
            (.ok (), (runFrom (start { env with epoch := c.time } r') w).2) := by
          rw [hop]
          exact runFrom_bind_ok (Prod.ext hrun rfl) _
        exact congrArg Prod.snd hvoid
      obtain ⟨j, hj, hsame⟩ := ht.stored
      rw [hfrom] at hi
      cases hi.symm.trans hj
      exact hsame
    · cases hop.symm.trans hop'
      rfl
  · exact ⟨r, d, pinned, now, hd, hmade, fun r' hop hrun => absurd ⟨r', hop, hrun⟩ htop⟩

/-- **A pinned instance keeps its definition.**  Every instance that a call starts, at the top or as
a child, was made for a request, and is stored ever after.  If it has a label, the label selects
the definition that the request has selected, until another version is saved under it; if it has
none, it has the live definition. -/
theorem definition_pinned (env : Env) (w : World) (hs : w.store.Shelved)
    (hu : Unused env.idName w) (c : Call) (id : String) (i : Instance)
    (hnew : w.store.getInstance? id = none)
    (hi : (c.from env w).store.getInstance? id = some i) :
    ∃ r d pinned now, Selected w.store r d pinned ∧
      (newInstance r d pinned id now).SameOrigin i ∧
      (∀ r', c.operation = .start r' →
        (runFrom (start { env with epoch := c.time } r') w).1 = .ok id → r' = r) ∧
      ∀ turns : List Turn, (∀ t ∈ turns, t.Spares d.id pinned) →
        ∃ j, (afterTurns env (c.from env w) turns).store.getInstance? id = some j ∧
          i.SameOrigin j ∧
          definitionOf? (afterTurns env (c.from env w) turns).store j =
            match pinned with
            | some _ => some d
            | none => (afterTurns env (c.from env w) turns).store.getWorkflow? d.id := by
  obtain ⟨htracked, r, d, pinned, now, hd, hmade, htop⟩ := started_by_call hu c hnew hi
  refine ⟨r, d, pinned, now, selected_of_requested hd, hmade, htop, fun turns hturns => ?_⟩
  have hlabels : Labels (c.from env w).store i d :=
    ((Labels.of_requested hs.shelf hd id now).of_sameOrigin hmade).of_versions
      (c.sameCatalog env w).versions
  have hworkflow : i.workflowId = d.id := hmade.workflowId
  have hversion : i.workflowVersion = pinned := hmade.workflowVersion
  obtain ⟨hlater, hlabels'⟩ := afterTurns_keeps turns
    (fun t ht => by rw [hworkflow, hversion]; exact hturns t ht) htracked hlabels
  obtain ⟨j, hj, hsame⟩ := hlater.stored
  rw [hmade.id] at hj
  refine ⟨j, hj, hsame, ?_⟩
  rw [hsame.definitionOf?, hlabels'.definitionOf?, hversion, hworkflow]

/-! ### a published version -/

/-- a published version of a workflow that waits for a form -/
def publishedAt (label : String) (second : Int) (version : Nat) : Version :=
  ⟨"child", label, .published, ⟨second, 0⟩, { Sample.child with version := version }⟩

def shelved : World :=
  { store := (({} : Store).saveVersion (publishedAt "first" 1 1)).saveVersion
      (publishedAt "second" 2 2) }

def publishedRequest : StartRequest :=
  { StartRequest.of "child" with workflowVersion := some publishedToken }

def publishedCall : Call := ⟨⟨3, 0⟩, .start publishedRequest⟩

def laterTurns : List Turn :=
  [.saveVersion (publishedAt "third" 4 3), .saveWorkflow Sample.child,
    .call ⟨⟨5, 0⟩, .resume "i" "work" none⟩]

/-- The newest published version is pinned, and stays so when another is published and the live
definition changes. -/
theorem definition_pinned_published :
    ∃ j, (afterTurns Sample.env (publishedCall.from Sample.env shelved)
        laterTurns).store.getInstance? "i" = some j ∧
      definitionOf? (afterTurns Sample.env (publishedCall.from Sample.env shelved)
        laterTurns).store j = some { Sample.child with version := 2 } := by
  have hshelved : shelved.store.Shelved :=
    .version (.version (.empty rfl) _ rfl (by decide)) _ rfl (by decide)
  have hunused : Unused Sample.env.idName shelved :=
    ⟨⟨Sample.names_injective, fun _ _ => rfl, fun _ _ => rfl⟩, fun _ _ _ _ hi => nomatch hi⟩
  have hstarted : ((publishedCall.from Sample.env shelved).store.getInstance? "i").isSome = true :=
    by decide +kernel
  obtain ⟨i, hi⟩ := Option.isSome_iff_exists.mp hstarted
  obtain ⟨r, d, pinned, _, hselected, _, htop, hlater⟩ :=
    definition_pinned Sample.env shelved hshelved hunused publishedCall "i" i rfl hi
  have hanswer : (runFrom (start { Sample.env with epoch := ⟨3, 0⟩ } publishedRequest)
      shelved).1.toOption = some "i" := by decide +kernel
  have hok : (runFrom (start { Sample.env with epoch := ⟨3, 0⟩ } publishedRequest) shelved).1 =
      .ok "i" := by
    revert hanswer
    cases (runFrom (start { Sample.env with epoch := ⟨3, 0⟩ } publishedRequest) shelved).1 with
    | ok id => exact fun h => congrArg Except.ok (Option.some.inj h)
    | error e => exact nofun
  obtain rfl := htop _ rfl hok
  have hrequested : requested? shelved.store publishedRequest =
      some ({ Sample.child with version := 2 }, some "second") := by decide +kernel
  cases hselected.requested.symm.trans hrequested
  obtain ⟨j, hj, _, hd⟩ := hlater laterTurns fun t ht => by
    simp only [laterTurns, List.mem_cons, List.not_mem_nil, or_false] at ht
    rcases ht with rfl | rfl | rfl
    · exact fun _ => by decide
    · trivial
    · trivial
  exact ⟨j, hj, hd⟩

end Engine
end Workflows
