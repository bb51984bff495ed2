import Workflows.Proofs.Engine.Move

/-!
# What every move keeps

* `Writes`        the ways in which moves and openings write to a store
* `Keyed`         every instance is stored under its own id
* `Kept`          no instance is lost, and what is fixed at its start stays; definitions stay as
                  they are

Statements on `Writes` hold for moves, for openings and for deeds.
-/

namespace Workflows

/-- Every instance is stored under its own id. -/
def Store.Keyed (s : Store) : Prop := ∀ id i, s.getInstance? id = some i → i.id = id

/-- No instance is lost, and what is fixed at the start of one stays; so do definitions. -/
structure Kept (s t : Store) : Prop where
  workflows : t.workflows = s.workflows
  versions : t.versions = s.versions
  instances : ∀ id i, s.getInstance? id = some i → ∃ j, t.getInstance? id = some j ∧ i.SameOrigin j

namespace Kept
variable {s t u : Store}

theorem refl (s : Store) : Kept s s := ⟨rfl, rfl, fun _ i h => ⟨i, h, Instance.SameOrigin.refl i⟩⟩

theorem trans (h : Kept s t) (h' : Kept t u) : Kept s u := by
  refine ⟨h'.workflows.trans h.workflows, h'.versions.trans h.versions, fun id i hi => ?_⟩
  obtain ⟨j, hj, hij⟩ := h.instances id i hi
  obtain ⟨k, hk, hjk⟩ := h'.instances id j hj
  exact ⟨k, hk, hij.trans hjk⟩

theorem of_core (h : t.core = s.core) : Kept s t :=
  ⟨congrArg Core.workflows h, congrArg Core.versions h, fun id i hi =>
    ⟨i, (Store.getInstance?_of_core h id).trans hi, Instance.SameOrigin.refl i⟩⟩

theorem getWorkflow? (h : Kept s t) (id : String) : t.getWorkflow? id = s.getWorkflow? id := by
  rw [Store.getWorkflow?, Store.getWorkflow?, h.workflows]

theorem listVersions (h : Kept s t) (id : String) : t.listVersions id = s.listVersions id := by
  rw [Store.listVersions, Store.listVersions, h.versions]

theorem resolve? (h : Kept s t) (id token : String) :
    t.resolve? id token = s.resolve? id token := by
  rw [Store.resolve?, Store.resolve?, Store.resolvePinned?, Store.resolvePinned?, h.getWorkflow?,
    h.listVersions]

theorem definitionOf? (h : Kept s t) (i : Instance) :
    Engine.definitionOf? t i = Engine.definitionOf? s i := by
  unfold Engine.definitionOf?
  cases i.workflowVersion with
  | none => exact h.getWorkflow? i.workflowId
  | some label => exact h.resolve? i.workflowId label

end Kept

namespace Engine
variable {names : Nat → String} {maxLevel : Nat} {w w' : World} {s s' : Scene} {act : Act}

/-- The ways in which moves and openings write. -/
inductive Writes (names : Nat → String) (maxLevel : Nat) (w : World) : World → Prop
  | quiet {w' : World} (h : Quiet w w') : Writes names maxLevel w w'
  | create {r : StartRequest} {d : Definition} {i : Instance} (h : Created names maxLevel w r d i) :
    Writes names maxLevel w (w.started i d)
  | link {l : ChildLink} {child : Instance} (h : w.store.getInstance? l.childId = some child)
    (hl : w.store.getLink? l.childId = none) : Writes names maxLevel w (w.link l)
  | record {i j : Instance} {w' : World} (hi : w.store.getInstance? i.id = some i)
    (h : i.SameOrigin j)
    (hs : w'.store = (w.put j).store) (hids : w'.ids = w.ids)
    (hr : w'.refusals = w.refusals) : Writes names maxLevel w w'

theorem stored_of_frame {f : Frame} {i : Instance} (hi : w.store.getInstance? f.instanceId = some i)
    (hid : i.id = f.instanceId) : w.store.getInstance? i.id = some i := by
  rw [hid]
  exact hi

theorem Move.writes (h : Move names maxLevel s s') : Writes names maxLevel s.world s'.world := by
  cases h with
  | quiet h => exact .quiet h
  | create _ _ _ _ hc => exact .create hc
  | link _ _ hl =>
    obtain ⟨child, hchild, _⟩ := hl.child
    exact .link hchild hl.unlinked
  | advance hi hid _ h now =>
    exact .record (stored_of_frame hi hid) (h.sameOrigin.written now) rfl rfl rfl
  | halt hi hid _ h now =>
    exact .record (stored_of_frame hi hid) (h.sameOrigin.written now) rfl rfl rfl

theorem sameOrigin_withData (i : Instance) (nodeId : String) (data : Option Json) :
    i.SameOrigin (withData i nodeId data) := by
  cases data with
  | none => exact Instance.SameOrigin.refl i
  | some v => exact ⟨rfl, rfl, rfl, rfl, rfl, rfl, rfl⟩

theorem withData_version (i : Instance) (nodeId : String) (data : Option Json) :
    (withData i nodeId data).version = i.version := by
  cases data with
  | none => rfl
  | some v => rfl

theorem sameOrigin_goingOn (i : Instance) (nodeId : String) (now : Instant) :
    i.SameOrigin (goingOn i nodeId now) :=
  ⟨rfl, rfl, rfl, rfl, rfl, rfl, rfl⟩

theorem sameOrigin_noted (i child : Instance) (link : ChildLink) :
    i.SameOrigin (noted i child link) :=
  (sameOrigin_withOutputs i child link).trans ⟨rfl, rfl, rfl, rfl, rfl, rfl, rfl⟩

theorem sameOrigin_held (i : Instance) (now : Instant) : i.SameOrigin (held i now) :=
  ⟨rfl, rfl, rfl, rfl, rfl, rfl, rfl⟩

theorem sameOrigin_setStatus (i : Instance) (status : InstanceStatus) (now : Instant) :
    i.SameOrigin (i.setStatus status now) :=
  ⟨rfl, rfl, rfl, rfl, rfl, rfl, rfl⟩

theorem not_terminal_of_parked {a : InstanceStatus} (h : a.isParked = true) :
    a.isTerminal = false := by
  cases a <;> first | rfl | cases h

theorem Woken.not_terminal {st : Store} {d : Definition} {i child : Instance} {link : ChildLink}
    (h : Woken st d i child link) : i.status.isTerminal = false :=
  not_terminal_of_parked (Bool.and_eq_true_iff.mp h.parked).1

/-- the record of an instance that has not ended is written again -/
def Rewrites (w w' : World) (i j : Instance) : Prop :=
  w.store.getInstance? i.id = some i ∧ i.status.isTerminal = false ∧ i.SameOrigin j ∧
    w'.store = (w.put j).store ∧ w'.ids = w.ids ∧ w'.refusals = w.refusals

/-- An opening creates an instance, or writes the record of one that has not ended. -/
theorem Opening.creates_or_rewrites (h : Opening names maxLevel act w s) :
    (∃ r d i, act = .start r ∧ Created names maxLevel w r d i ∧ s = ⟨[⟨i.id, d⟩], w.started i d⟩) ∨
      ∃ i j, Rewrites w s.world i j := by
  cases h with
  | start hc => exact .inl ⟨_, _, _, rfl, hc, rfl⟩
  | resume data now hi hp _ _ =>
    exact .inr ⟨_, _, hi, not_terminal_of_parked hp,
      ((sameOrigin_withData _ _ data).trans (sameOrigin_goingOn _ _ now)).written now,
      rfl, rfl, rfl⟩
  | wake now h _ _ =>
    exact .inr ⟨_, _, h.stored, h.not_terminal,
      ((sameOrigin_withOutputs _ _ _).trans (sameOrigin_goingOn _ _ now)).written now,
      rfl, rfl, rfl⟩
  | note now h _ _ =>
    exact .inr ⟨_, _, h.stored, h.not_terminal, (sameOrigin_noted _ _ _).written now, rfl, rfl, rfl⟩
  | failWith now h _ =>
    exact .inr
      ⟨_, _, h.stored, h.not_terminal, (sameOrigin_failedWith _ _ _ now).written now, rfl, rfl, rfl⟩
  | pause now hi ht _ =>
    exact .inr ⟨_, _, hi, ht, (sameOrigin_held _ now).written now, rfl, rfl, rfl⟩
  | cancel now hi ht =>
    exact .inr ⟨_, _, hi, ht, (sameOrigin_setStatus _ _ now).written now, rfl, rfl, rfl⟩

theorem Opening.writes (h : Opening names maxLevel act w s) : Writes names maxLevel w s.world := by
  rcases h.creates_or_rewrites with ⟨r, d, i, _, hc, rfl⟩ | ⟨i, j, hi, _, hsame, hs, hids, hr⟩
  · exact .create hc
  · exact .record hi hsame hs hids hr

/-! ## kept by every write -/

/-- A property of worlds that every write keeps is kept by moves. -/
theorem Moves.induct {P : World → Prop} (h : Moves names maxLevel s s') (hw : P s.world)
    (hstep : ∀ {v v'}, Writes names maxLevel v v' → P v → P v') : P s'.world := by
  induction h with
  | refl => exact hw
  | tail _ hm ih => exact hstep hm.writes ih

theorem Deed.induct {P : World → Prop} (h : Deed names maxLevel act w w') (hw : P w)
    (hstep : ∀ {v v'}, Writes names maxLevel v v' → P v → P v') : P w' := by
  obtain ⟨v, scene, hquiet, hopening, hmoves⟩ := h
  exact Moves.induct hmoves (hstep hopening.writes (hstep (.quiet hquiet) hw)) hstep

theorem keyed_put (hk : w.store.Keyed) (i : Instance) : (w.put i).store.Keyed := by
  intro id j hj
  rw [World.getInstance?_put] at hj
  split at hj
  · next he =>
    cases hj
    exact he.symm
  · exact hk id j hj

theorem Writes.keyed (h : Writes names maxLevel w w') (hk : w.store.Keyed) : w'.store.Keyed := by
  cases h with
  | quiet h =>
    intro id i hi
    rw [h.getInstance?] at hi
    exact hk id i hi
  | create h => exact keyed_put hk _
  | link h => exact hk
  | record _ _ hs _ _ =>
    rw [hs]
    exact keyed_put hk _

theorem Writes.kept (h : Writes names maxLevel w w') : Kept w.store w'.store := by
  cases h with
  | quiet h => exact Kept.of_core h.core
  | @create r d i h =>
    refine ⟨rfl, rfl, fun id j hj => ⟨j, ?_, Instance.SameOrigin.refl j⟩⟩
    rw [World.started_store, World.getInstance?_put_of_ne]
    · exact hj
    · rintro rfl
      rw [h.unstored] at hj
      cases hj
  | link h => exact ⟨rfl, rfl, fun id i hi => ⟨i, hi, Instance.SameOrigin.refl i⟩⟩
  | @record i j _ hi ho hs _ _ =>
    rw [hs]
    refine ⟨rfl, rfl, fun id k hk => ?_⟩
    by_cases he : id = j.id
    · refine ⟨j, World.getInstance?_put_self he.symm, ?_⟩
      rw [he, ho.id, hi] at hk
      cases hk
      exact ho
    · refine ⟨k, ?_, Instance.SameOrigin.refl k⟩
      rw [World.getInstance?_put_of_ne he]
      exact hk

/-- No link is changed. -/
theorem Writes.getLink? (h : Writes names maxLevel w w') {id : String} {link : ChildLink}
    (hl : w.store.getLink? id = some link) : w'.store.getLink? id = some link := by
  cases h with
  | quiet h => exact (h.getLink? id).trans hl
  | create h => exact hl
  | @link l _ _ hnone =>
    rw [World.getLink?_link, if_neg]
    · exact hl
    · rintro rfl
      rw [hnone] at hl
      cases hl
  | record _ _ hs _ _ =>
    rw [hs]
    exact hl

theorem Writes.fresh (h : Writes names maxLevel w w') (hf : Fresh names w) : Fresh names w' := by
  cases h with
  | quiet h => exact h.fresh hf
  | @create r d i h =>
    refine ⟨hf.distinct, fun n hn => ?_, hf.unlinked⟩
    rw [World.started_store, World.getInstance?_put_of_ne]
    · exact hf.unstored n hn
    · obtain ⟨m, hm, he⟩ := h.generated
      intro he'
      have : n = m := hf.distinct (he'.trans he)
      have : w.ids ≤ n := hn
      omega
  | @link l child h =>
    refine ⟨hf.distinct, hf.unstored, fun n hn => ?_⟩
    rw [World.getLink?_link, if_neg]
    · exact hf.unlinked n hn
    · intro he
      rw [← he, hf.unstored n hn] at h
      cases h
  | @record i j _ hi ho hs hids _ =>
    refine ⟨hf.distinct, fun n hn => ?_, fun n hn => ?_⟩
    · rw [hs, World.getInstance?_put_of_ne]
      · exact hf.unstored n (hids ▸ hn)
      · intro he
        rw [← ho.id, ← he, hf.unstored n (hids ▸ hn)] at hi
        cases hi
    · rw [hs]
      exact hf.unlinked n (hids ▸ hn)

/-- Ids are fresh, and instances are stored under their own. -/
structure Orderly (names : Nat → String) (w : World) : Prop where
  fresh : Fresh names w
  keyed : w.store.Keyed

theorem Orderly.locked (ho : Orderly names w) (id : String) : Orderly names (w.locked id) :=
  ⟨(Quiet.locked w id).fresh ho.fresh, ho.keyed⟩

theorem Writes.orderly (h : Writes names maxLevel w w') (ho : Orderly names w) : Orderly names w' :=
  ⟨h.fresh ho.fresh, h.keyed ho.keyed⟩

theorem Deed.orderly (h : Deed names maxLevel act w w') (ho : Orderly names w) : Orderly names w' :=
  Deed.induct h ho Writes.orderly

theorem Deed.keyed (h : Deed names maxLevel act w w') (hk : w.store.Keyed) : w'.store.Keyed :=
  Deed.induct (P := fun v => v.store.Keyed) h hk fun hw hk => hw.keyed hk

theorem Deed.getLink? (h : Deed names maxLevel act w w') {id : String} {link : ChildLink}
    (hl : w.store.getLink? id = some link) : w'.store.getLink? id = some link :=
  Deed.induct (P := fun v => v.store.getLink? id = some link) h hl fun hw hl => hw.getLink? hl

/-- **No instance is lost on the way, and what is fixed at its start stays.** -/
theorem Deed.kept (h : Deed names maxLevel act w w') : Kept w.store w'.store :=
  Deed.induct (P := fun v => Kept w.store v.store) h (Kept.refl _) fun hw hk => hk.trans hw.kept

end Engine
end Workflows
