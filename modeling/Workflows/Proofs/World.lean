import Workflows.Proofs.Run
import Workflows.Store.Records
import Mathlib.Logic.Function.Defs

/-!
# Relations between worlds

* `Store.core`          the part of a store that instances are made of
* `World.Tells`         nothing but events of some sort is told
* `Aside`               a change that leaves this part and the locks alone, as nodes make it
* `Quiet`               a change that leaves this part alone, of locks and events of nodes too
* `World.put`, `tell`   a world with a record, and with an event
* `Fresh`               no id that is still to be generated is in use
* `Around`              a change of one record, and of what was generated meanwhile
-/

namespace Workflows

/-! ## the core of a store -/

/-- The part of a store that instances are made of. -/
structure Core where
  workflows : Dict Definition
  versions : Dict (List Version)
  instances : Dict Instance
  links : Dict ChildLink

namespace Store

def core (s : Store) : Core := ⟨s.workflows, s.versions, s.instances, s.links⟩

theorem getInstance?_of_core {s t : Store} (h : t.core = s.core) (id : String) :
    t.getInstance? id = s.getInstance? id := by
  have hi : t.instances = s.instances := congrArg Core.instances h
  rw [getInstance?, getInstance?, hi]

theorem getLink?_of_core {s t : Store} (h : t.core = s.core) (id : String) :
    t.getLink? id = s.getLink? id := by
  have hl : t.links = s.links := congrArg Core.links h
  rw [getLink?, getLink?, hl]

/-! ### reading after writing -/

@[simp] theorem getInstance?_insertInstance_self (s : Store) (i : Instance) :
    (s.insertInstance i).getInstance? i.id = some i :=
  Dict.get?_insert_self s.instances i.id i

theorem getInstance?_insertInstance_of_ne (s : Store) (i : Instance) {id : String} (h : id ≠ i.id) :
    (s.insertInstance i).getInstance? id = s.getInstance? id :=
  Dict.get?_insert_of_ne s.instances i h

@[simp] theorem getLink?_insertLink_self (s : Store) (l : ChildLink) :
    (s.insertLink l).getLink? l.childId = some l :=
  Dict.get?_insert_self s.links l.childId l

theorem getLink?_insertLink_of_ne (s : Store) (l : ChildLink) {id : String} (h : id ≠ l.childId) :
    (s.insertLink l).getLink? id = s.getLink? id :=
  Dict.get?_insert_of_ne s.links l h

/-- a write that meets the stored version -/
theorem updateInstance_of_version {s : Store} {i stored : Instance}
    (h : s.getInstance? i.id = some stored) (hv : stored.version = i.version) : s.updateInstance i =
      .ok (s.insertInstance { i with version := i.version + 1 },
        { i with version := i.version + 1 }) := by
  rw [updateInstance, h]
  simp only [hv, if_pos]
  rfl

end Store

/-! ## events -/

namespace World
variable {sort : Happening → Bool} {u v w w' : World}

/-- Nothing but events of some sort is told between two worlds. -/
def Tells (sort : Happening → Bool) (w w' : World) : Prop :=
  ∃ es : List Event, w'.events.toList = w.events.toList ++ es ∧ ∀ e ∈ es, sort e.happening

theorem Tells.of_events (h : w'.events = w.events) : Tells sort w w' := by
  refine ⟨[], ?_, ?_⟩
  · rw [h, List.append_nil]
  · intro e hmem
    cases hmem

theorem Tells.trans (h : Tells sort u v) (h' : Tells sort v w) : Tells sort u w := by
  obtain ⟨es, hes, hsort⟩ := h
  obtain ⟨fs, hfs, hsort'⟩ := h'
  refine ⟨es ++ fs, ?_, ?_⟩
  · rw [hfs, hes, List.append_assoc]
  · intro e he
    rcases List.mem_append.mp he with he | he
    · exact hsort e he
    · exact hsort' e he

theorem Tells.emit (env : Env) (id : String) {h : Happening} (hh : sort h) (w : World) :
    Tells sort w ((env.emit id h).run w).2 := by
  refine ⟨[⟨id, h, env.epoch.addNanos w.ticks⟩], ?_, ?_⟩
  · exact Array.toList_push
  · intro e he
    rw [List.mem_singleton.mp he]
    exact hh

end World

/-! ## changes of nodes -/

/-- what a node tells while it runs -/
def Happening.isNote : Happening → Bool
  | .nodeRetrying .. | .nodeMessage .. => true
  | _ => false

/-- A change of the world that leaves the core of its store and its locks alone. -/
structure Aside (w w' : World) : Prop where
  core : w'.store.core = w.store.core
  ids : w.ids ≤ w'.ids
  locks : w'.locks = w.locks
  refusals : w'.refusals = w.refusals
  events : World.Tells Happening.isNote w w'

namespace Aside
variable {u v w : World}

theorem of_events {w w' : World} (hc : w'.store.core = w.store.core) (hi : w.ids ≤ w'.ids)
    (hl : w'.locks = w.locks) (hr : w'.refusals = w.refusals) (he : w'.events = w.events) :
    Aside w w' := ⟨hc, hi, hl, hr, .of_events he⟩

theorem refl (w : World) : Aside w w := of_events rfl (Nat.le_refl _) rfl rfl rfl

theorem trans (h : Aside u v) (h' : Aside v w) : Aside u w :=
  ⟨h'.core.trans h.core, Nat.le_trans h.ids h'.ids, h'.locks.trans h.locks,
    h'.refusals.trans h.refusals, h.events.trans h'.events⟩

theorem getInstance? (h : Aside v w) (id : String) :
    w.store.getInstance? id = v.store.getInstance? id :=
  Store.getInstance?_of_core h.core id

theorem getLink? (h : Aside v w) (id : String) : w.store.getLink? id = v.store.getLink? id :=
  Store.getLink?_of_core h.core id

theorem freshId (env : Env) (w : World) : Aside w (env.freshId.run w).2 :=
  of_events rfl (Nat.le_succ _) rfl rfl rfl

theorem send (env : Env) (r : HttpRequest) (w : World) : Aside w ((env.send r).run w).2 :=
  of_events rfl (Nat.le_refl _) rfl rfl rfl

theorem emit (env : Env) (id : String) (h : Happening) (hh : h.isNote) (w : World) :
    Aside w ((env.emit id h).run w).2 :=
  ⟨rfl, Nat.le_refl _, rfl, rfl, .emit env id hh w⟩

theorem onStore {α : Type} {f : Store → α × Store} (hf : ∀ s, (f s).2.core = s.core) (w : World) :
    Aside w ((World.onStore f).run w).2 :=
  of_events (hf w.store) (Nat.le_refl _) rfl rfl rfl

end Aside

/-! ## changes beside the instances -/

/-- an event that is neither the start of an instance nor a new state of one -/
def Happening.isOfNode : Happening → Bool
  | .instanceStarted .. | .statusChanged .. => false
  | _ => true

/-- A change of the world that leaves the core of its store alone: of locks, of the clock, and what
nodes do. -/
structure Quiet (w w' : World) : Prop where
  core : w'.store.core = w.store.core
  ids : w.ids ≤ w'.ids
  refusals : w'.refusals = w.refusals
  events : World.Tells Happening.isOfNode w w'

theorem Happening.isOfNode_of_isNote {h : Happening} (hn : h.isNote) : h.isOfNode := by
  cases h <;> first | rfl | cases hn

theorem Aside.quiet {w w' : World} (h : Aside w w') : Quiet w w' := by
  obtain ⟨es, hes, hnote⟩ := h.events
  exact ⟨h.core, h.ids, h.refusals, es, hes,
    fun e he => Happening.isOfNode_of_isNote (hnote e he)⟩

namespace Quiet
variable {u v w : World}

theorem of_events {w w' : World} (hc : w'.store.core = w.store.core) (hi : w.ids ≤ w'.ids)
    (hr : w'.refusals = w.refusals) (he : w'.events = w.events) : Quiet w w' :=
  ⟨hc, hi, hr, .of_events he⟩

theorem refl (w : World) : Quiet w w := of_events rfl (Nat.le_refl _) rfl rfl

theorem trans (h : Quiet u v) (h' : Quiet v w) : Quiet u w :=
  ⟨h'.core.trans h.core, Nat.le_trans h.ids h'.ids, h'.refusals.trans h.refusals,
    h.events.trans h'.events⟩

theorem emit (env : Env) (id : String) (h : Happening) (hh : h.isOfNode) (w : World) :
    Quiet w ((env.emit id h).run w).2 :=
  ⟨rfl, Nat.le_refl _, rfl, .emit env id hh w⟩

theorem getInstance? (h : Quiet v w) (id : String) :
    w.store.getInstance? id = v.store.getInstance? id :=
  Store.getInstance?_of_core h.core id

theorem getLink? (h : Quiet v w) (id : String) : w.store.getLink? id = v.store.getLink? id :=
  Store.getLink?_of_core h.core id

end Quiet

/-! ## writing instances -/

/-- the record of an instance as it is written at some time -/
def Instance.written (i : Instance) (now : Instant) : Instance :=
  { i with updatedAt := now, version := i.version + 1 }

namespace World

/-- the world with a record -/
def put (w : World) (i : Instance) : World := { w with store := w.store.insertInstance i }

/-- the world with one more event -/
def tell (w : World) (id : String) (h : Happening) (time : Instant) : World :=
  { w with events := w.events.push ⟨id, h, time⟩ }

/-- the world with a record, and its state announced -/
def announce (w : World) (i : Instance) (time : Instant) : World :=
  (w.put i).tell i.id (.statusChanged i.status i.error) time

/-- the world with a new instance of a definition, announced -/
def started (w : World) (i : Instance) (d : Definition) : World :=
  (w.put i).tell i.id (.instanceStarted d.id i.nestingLevel) i.startedAt

/-- the world in which the lock of an instance is held, and in which it is free again -/
def locked (w : World) (id : String) : World := { w with locks := w.locks.push (.acquire id) }

def unlocked (w : World) (id : String) : World := { w with locks := w.locks.push (.release id) }

/-- the world with one more link -/
def link (w : World) (l : ChildLink) : World := { w with store := w.store.insertLink l }

theorem started_store (w : World) (i : Instance) (d : Definition) :
    (w.started i d).store = (w.put i).store :=
  rfl

theorem getInstance?_put (w : World) (i : Instance) (id : String) :
    (w.put i).store.getInstance? id = if id = i.id then some i else w.store.getInstance? id := by
  by_cases h : id = i.id
  · rw [if_pos h, h]
    exact Store.getInstance?_insertInstance_self w.store i
  · rw [if_neg h]
    exact Store.getInstance?_insertInstance_of_ne w.store i h

theorem getLink?_link (w : World) (l : ChildLink) (id : String) :
    (w.link l).store.getLink? id = if id = l.childId then some l else w.store.getLink? id := by
  by_cases h : id = l.childId
  · rw [if_pos h, h]
    exact Store.getLink?_insertLink_self w.store l
  · rw [if_neg h]
    exact Store.getLink?_insertLink_of_ne w.store l h

theorem getInstance?_put_self {w : World} {i : Instance} {id : String} (h : i.id = id) :
    (w.put i).store.getInstance? id = some i := by
  rw [getInstance?_put, if_pos h.symm]

theorem getInstance?_put_of_ne {w : World} {i : Instance} {id : String} (h : id ≠ i.id) :
    (w.put i).store.getInstance? id = w.store.getInstance? id := by
  rw [getInstance?_put, if_neg h]

end World

theorem Quiet.locked (w : World) (id : String) : Quiet w (w.locked id) :=
  .of_events rfl (Nat.le_refl _) rfl rfl

theorem Quiet.unlocked (w : World) (id : String) : Quiet w (w.unlocked id) :=
  .of_events rfl (Nat.le_refl _) rfl rfl

/-! ## generated ids -/

/-- The generated ids are distinct, and none that is still to be generated is in use. -/
structure Fresh (names : Nat → String) (w : World) : Prop where
  distinct : Function.Injective names
  unstored : ∀ n, w.ids ≤ n → w.store.getInstance? (names n) = none
  unlinked : ∀ n, w.ids ≤ n → w.store.getLink? (names n) = none

/-- an id that was generated between two worlds -/
def Between (names : Nat → String) (w w' : World) (id : String) : Prop :=
  ∃ n, w.ids ≤ n ∧ n < w'.ids ∧ id = names n

/-- A change of one record, and of instances and links under ids that were generated meanwhile. -/
structure Around (names : Nat → String) (own : Option String) (w w' : World) : Prop where
  ids : w.ids ≤ w'.ids
  instances : ∀ id, own ≠ some id → ¬ Between names w w' id →
    w'.store.getInstance? id = w.store.getInstance? id
  links : ∀ id, ¬ Between names w w' id → w'.store.getLink? id = w.store.getLink? id

variable {names : Nat → String} {own : Option String} {u v w w' : World}

theorem Between.weaken {id : String} (hu : u.ids ≤ v.ids) (hw : w.ids ≤ w'.ids)
    (h : Between names v w id) : Between names u w' id := by
  obtain ⟨n, hn, hn', rfl⟩ := h
  exact ⟨n, Nat.le_trans hu hn, Nat.lt_of_lt_of_le hn' hw, rfl⟩

theorem Fresh.not_between_of_stored {id : String} {i : Instance} (hf : Fresh names w)
    (h : w.store.getInstance? id = some i) : ¬ Between names w w' id := by
  rintro ⟨n, hn, _, rfl⟩
  rw [hf.unstored n hn] at h
  cases h

/-- an id that is still to be generated was not generated before -/
theorem Fresh.not_between {n : Nat} (hf : Fresh names w) (hn : w'.ids ≤ n) :
    ¬ Between names w w' (names n) := by
  rintro ⟨m, _, hm, he⟩
  have : n = m := hf.distinct he
  omega

namespace Around

theorem of_quiet (h : Quiet w w') : Around names own w w' :=
  ⟨h.ids, fun id _ _ => h.getInstance? id, fun id _ => h.getLink? id⟩

theorem refl (w : World) : Around names own w w := of_quiet (Quiet.refl w)

theorem trans (h : Around names own u v) (h' : Around names own v w) : Around names own u w := by
  refine ⟨Nat.le_trans h.ids h'.ids, fun id ho hb => ?_, fun id hb => ?_⟩
  · rw [h'.instances id ho fun hb' => hb (hb'.weaken h.ids (Nat.le_refl _)),
      h.instances id ho fun hb' => hb (hb'.weaken (Nat.le_refl _) h'.ids)]
  · rw [h'.links id fun hb' => hb (hb'.weaken h.ids (Nat.le_refl _)),
      h.links id fun hb' => hb (hb'.weaken (Nat.le_refl _) h'.ids)]

/-- a change that leaves every record alone but new ones -/
theorem of_none (h : Around names none w w') : Around names own w w' :=
  ⟨h.ids, fun id _ hb => h.instances id (fun he => nomatch he) hb, h.links⟩

/-- a change of a record under an id that has been generated in the meantime -/
theorem hide {id : String} (hb : Between names w w' id) (h : Around names (some id) w w') :
    Around names none w w' := by
  refine ⟨h.ids, fun other _ hother => h.instances other ?_ hother, h.links⟩
  intro he
  cases he
  exact hother hb

/-- the write of a record -/
theorem put (w : World) (i : Instance) : Around names (some i.id) w (w.put i) := by
  refine ⟨Nat.le_refl _, fun id ho _ => ?_, fun id _ => rfl⟩
  exact Store.getInstance?_insertInstance_of_ne w.store i fun he => ho (he ▸ rfl)

theorem tell (h : Around names own w w') (id : String) (happening : Happening) (time : Instant) :
    Around names own w (w'.tell id happening time) := ⟨h.ids, h.instances, h.links⟩

theorem announce (w : World) (i : Instance) (time : Instant) :
    Around names (some i.id) w (w.announce i time) := (put w i).tell _ _ _

/-- a record that is not written is still stored -/
theorem stored {id : String} {i : Instance} (h : Around names own w w') (hf : Fresh names w)
    (ho : own ≠ some id)
    (hi : w.store.getInstance? id = some i) : w'.store.getInstance? id = some i := by
  rw [h.instances id ho (hf.not_between_of_stored hi), hi]

/-- ids are fresh after a change of a stored record -/
theorem fresh (h : Around names own w w') (hf : Fresh names w)
    (ho : ∀ id, own = some id → ∃ i, w.store.getInstance? id = some i) : Fresh names w' := by
  refine ⟨hf.distinct, fun n hn => ?_, fun n hn => ?_⟩
  · rw [h.instances (names n) ?_ (hf.not_between hn)]
    · exact hf.unstored n (Nat.le_trans h.ids hn)
    · intro he
      obtain ⟨i, hi⟩ := ho _ he
      rw [hf.unstored n (Nat.le_trans h.ids hn)] at hi
      cases hi
  · rw [h.links (names n) (hf.not_between hn)]
    exact hf.unlinked n (Nat.le_trans h.ids hn)

end Around

theorem Quiet.fresh (h : Quiet w w') (hf : Fresh names w) : Fresh names w' :=
  (Around.of_quiet h : Around names none w w').fresh hf fun _ hid => nomatch hid

end Workflows
