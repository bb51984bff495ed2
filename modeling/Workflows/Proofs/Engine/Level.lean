import Mathlib.Data.Finset.Card
import Workflows.Proofs.Engine.Link

/-!
# Levels

Whoever waits for a child is one level above it, and walks start instances below themselves only.
So a climb from parent to parent comes to an end, however many instances are started on the way.

* `storedOf`     the stored instances of some sort
* `shallow`      the stored instances above some level
* `Deep`         everything that is walked is at some level or below it

Main statement: the walks of a parent start nothing above it (`Deed.shallow_wake`).
-/

namespace Workflows

theorem Dict.mem_keys_of_get? {α : Type} {d : Dict α} {key : String} {v : α}
    (h : Dict.get? d key = some v) : key ∈ Dict.keys d := by
  induction d with
  | nil => cases h
  | cons e d ih =>
    obtain ⟨k, u⟩ := e
    rw [Dict.keys, List.map_cons, List.mem_cons]
    by_cases hk : key = k
    · exact .inl hk
    · rw [Dict.get?, if_neg hk] at h
      exact .inr (ih h)

namespace Engine
variable {names : Nat → String} {maxLevel : Nat} {s s' : Scene} {w w' : World} {act : Act}
  {level : Nat} {id : String}
  {i j : Instance}

/-- the ids of the stored instances of some sort -/
def storedOf (sort : Instance → Bool) (w : World) : Finset String :=
  (Dict.keys w.store.instances).toFinset.filter fun id => (w.store.getInstance? id).any sort

theorem mem_storedOf {sort : Instance → Bool} :
    id ∈ storedOf sort w ↔ ∃ i, w.store.getInstance? id = some i ∧ sort i = true := by
  unfold storedOf
  rw [Finset.mem_filter, List.mem_toFinset, Option.any_eq_true]
  constructor
  · rintro ⟨_, i, hi, hs⟩
    exact ⟨i, hi, hs⟩
  · rintro ⟨i, hi, hs⟩
    exact ⟨Dict.mem_keys_of_get? hi, i, hi, hs⟩

theorem card_storedOf_le (sort : Instance → Bool) (w : World) :
    (storedOf sort w).card ≤ w.store.instances.length := by
  calc (storedOf sort w).card
      ≤ (Dict.keys w.store.instances).toFinset.card := Finset.card_filter_le _ _
    _ ≤ (Dict.keys w.store.instances).length := List.toFinset_card_le _
    _ = w.store.instances.length := List.length_map _

def shallow (w : World) (level : Nat) : Finset String :=
  storedOf (·.nestingLevel < level) w

theorem mem_shallow :
    id ∈ shallow w level ↔ ∃ i, w.store.getInstance? id = some i ∧ i.nestingLevel < level := by
  unfold shallow
  rw [mem_storedOf]
  simp only [decide_eq_true_eq]

theorem card_shallow_le (w : World) (level : Nat) :
    (shallow w level).card ≤ w.store.instances.length :=
  card_storedOf_le _ w

theorem card_shallow_lt (hi : w.store.getInstance? id = some i) (hl : i.nestingLevel < level) :
    (shallow w i.nestingLevel).card < (shallow w level).card := by
  refine Finset.card_lt_card (Finset.ssubset_iff_of_subset ?_ |>.mpr
    ⟨id, mem_shallow.mpr ⟨i, hi, hl⟩, ?_⟩)
  · intro other hother
    obtain ⟨k, hk, hlevel⟩ := mem_shallow.mp hother
    exact mem_shallow.mpr ⟨k, hk, Nat.lt_trans hlevel hl⟩
  · intro hself
    obtain ⟨k, hk, hlevel⟩ := mem_shallow.mp hself
    cases Option.some.inj (hk.symm.trans hi)
    exact Nat.lt_irrefl _ hlevel

def Deep (level : Nat) (s : Scene) : Prop :=
  ∀ f ∈ s.frames, ∃ i, s.world.store.getInstance? f.instanceId = some i ∧ level ≤ i.nestingLevel

theorem Deep.kept {fs : List Frame} (h : Deep level ⟨fs, w⟩) (hk : Kept w.store w'.store) :
    Deep level ⟨fs, w'⟩ := by
  intro f hf
  obtain ⟨i, hi, hl⟩ := h f hf
  obtain ⟨k, hk, hsame⟩ := hk.instances _ i hi
  exact ⟨k, hk, hsame.nestingLevel ▸ hl⟩

theorem shallow_record (hi : w.store.getInstance? i.id = some i) (ho : i.SameOrigin j)
    (hs : w'.store = (w.put j).store) : shallow w' level ⊆ shallow w level := by
  intro id hid
  obtain ⟨k, hk, hl⟩ := mem_shallow.mp hid
  rw [hs] at hk
  obtain ⟨k₀, hk₀, hsame⟩ := origin_of_put hi ho hk
  exact mem_shallow.mpr ⟨k₀, hk₀, hsame.nestingLevel ▸ hl⟩

theorem shallow_congr (h : ∀ id, w'.store.getInstance? id = w.store.getInstance? id) :
    shallow w' level ⊆ shallow w level := by
  intro id hid
  obtain ⟨k, hk, hl⟩ := mem_shallow.mp hid
  exact mem_shallow.mpr ⟨k, (h id).symm.trans hk, hl⟩

/-- a new instance at some level or below it is not above it -/
theorem shallow_started {d : Definition} (hl : level ≤ i.nestingLevel) :
    shallow (w.started i d) level ⊆ shallow w level := by
  intro id hid
  obtain ⟨k, hk, hlevel⟩ := mem_shallow.mp hid
  rw [World.started_store, World.getInstance?_put] at hk
  split at hk
  · cases hk
    exact absurd hlevel (Nat.not_lt.mpr hl)
  · exact mem_shallow.mpr ⟨k, hk, hlevel⟩

theorem Created.nestingLevel {r : StartRequest} {d : Definition}
    (h : Created names maxLevel w r d i) : i.nestingLevel = r.nestingLevel := by
  obtain ⟨_, _, _, he⟩ := h.definition
  rw [he]
  rfl

theorem Move.shallow (h : Move names maxLevel s s') (hd : Deep level s) :
    shallow s'.world level ⊆ shallow s.world level ∧ Deep level s' := by
  have hkept := h.writes.kept
  cases h with
  | quiet h => exact ⟨shallow_congr h.getInstance?, hd.kept hkept⟩
  | @create f fs w p i r d hp _ _ hl hc =>
    obtain ⟨q, hq, hlevel⟩ := hd f List.mem_cons_self
    cases Option.some.inj (hq.symm.trans hp)
    have hnew : level ≤ i.nestingLevel := by
      rw [hc.nestingLevel, hl]
      exact Nat.le_succ_of_le hlevel
    refine ⟨shallow_started hnew, fun g hg => ?_⟩
    rcases List.mem_cons.mp hg with rfl | hg
    · exact ⟨i, World.getInstance?_put_self rfl, hnew⟩
    · exact hd.kept hkept g hg
  | link => exact ⟨shallow_congr fun _ => rfl, hd.kept hkept⟩
  | advance hi hid _ h now =>
    exact ⟨shallow_record (stored_of_frame hi hid) (h.sameOrigin.written now) rfl, hd.kept hkept⟩
  | halt hi hid _ h now =>
    refine ⟨shallow_record (stored_of_frame hi hid) (h.sameOrigin.written now) rfl, fun g hg => ?_⟩
    exact hd.kept hkept g (List.mem_cons_of_mem _ hg)

theorem Moves.shallow (h : Moves names maxLevel s s') (hd : Deep level s) :
    shallow s'.world level ⊆ shallow s.world level := by
  have hboth : Engine.shallow s'.world level ⊆ Engine.shallow s.world level ∧ Deep level s' := by
    induction h with
    | refl => exact ⟨Finset.Subset.refl _, hd⟩
    | tail _ hm ih =>
      obtain ⟨hsub, hdeep⟩ := hm.shallow ih.2
      exact ⟨hsub.trans ih.1, hdeep⟩
  exact hboth.1

theorem deep_single {d : Definition} (hi : w.store.getInstance? i.id = some i)
    (hk : Kept w.store w'.store) : Deep i.nestingLevel ⟨[⟨i.id, d⟩], w'⟩ := by
  intro f hf
  rw [List.mem_singleton.mp hf]
  obtain ⟨k, hk, hsame⟩ := hk.instances _ i hi
  exact ⟨k, hk, Nat.le_of_eq hsame.nestingLevel.symm⟩

/-- **The walks of a parent that is woken start nothing above it.** -/
theorem Deed.shallow_wake {link : ChildLink} {child parent : Instance}
    (h : Deed names maxLevel (.wake link child) w w')
    (hp : w.store.getInstance? link.parentId = some parent) :
    shallow w' parent.nestingLevel ⊆ shallow w parent.nestingLevel := by
  obtain ⟨v, scene, hquiet, hopening, hmoves⟩ := h
  have hp' : v.store.getInstance? link.parentId = some parent := (hquiet.getInstance? _).trans hp
  have hkept := hopening.writes.kept
  have hdeep : Deep parent.nestingLevel scene := by
    cases hopening with
    | wake now h _ _ =>
      rw [h.reports.parent] at hp'
      cases Option.some.inj (h.stored.symm.trans hp')
      exact deep_single h.stored hkept
    | note => exact fun _ hf => nomatch hf
    | failWith => exact fun _ hf => nomatch hf
  have hwritten : shallow scene.world parent.nestingLevel ⊆ shallow v parent.nestingLevel := by
    rcases hopening.creates_or_rewrites with ⟨_, _, _, hact, _⟩ | ⟨i, j, hi, _, hsame, hs, _⟩
    · cases hact
    · exact shallow_record hi hsame hs
  calc shallow w' parent.nestingLevel
      ⊆ shallow scene.world parent.nestingLevel := Moves.shallow hmoves hdeep
    _ ⊆ shallow v parent.nestingLevel := hwritten
    _ ⊆ shallow w parent.nestingLevel := shallow_congr hquiet.getInstance?

/-- From a child to its parent there are fewer instances left above. -/
theorem Deed.shallow_wake_lt {link : ChildLink} {child parent : Instance}
    (h : Deed names maxLevel (.wake link child) w w')
    (hp : w.store.getInstance? link.parentId = some parent)
    (hl : child.nestingLevel = parent.nestingLevel + 1)
    (hj : w'.store.getInstance? link.parentId = some j) :
    (shallow w' j.nestingLevel).card < (shallow w child.nestingLevel).card := by
  obtain ⟨k, hk, hsame⟩ := h.kept.instances _ _ hp
  cases Option.some.inj (hk.symm.trans hj)
  calc (shallow w' j.nestingLevel).card
      = (shallow w' parent.nestingLevel).card := by rw [hsame.nestingLevel]
    _ ≤ (shallow w parent.nestingLevel).card := Finset.card_le_card (h.shallow_wake hp)
    _ < (shallow w child.nestingLevel).card := card_shallow_lt hp (hl ▸ Nat.lt_succ_self _)

end Engine
end Workflows
