import Mathlib.Data.List.Induction
import Workflows.Engine.Operations
import Workflows.Proofs.Insertion

/-!
# Saved definitions

* `Saved`     a store whose definitions and versions were saved under their own ids
* `Filed`     what lookups find in such a store
* `Shelved`   a store whose versions were saved so, and anything else in any way
* `Shelf`     what lookups of versions find in it
* `Pins`      a version that its label selects, until another is saved under it

Main statements: an instance finds the definition again that its start has selected
(`definitionOf?_of_requested`), and the word for published versions selects one that no other is
younger than (`newest?_youngest`).
-/

namespace Workflows
open Insertion

/-! ## points in time -/

namespace Instant
variable {a b c : Instant}

theorem not_before_trans (hab : a.before b = false) (hbc : b.before c = false) : a.before c = false := by
  simp only [before, Bool.or_eq_false_iff, Bool.and_eq_false_iff, decide_eq_false_iff_not,
    beq_eq_false_iff_ne] at hab hbc ⊢
  omega

theorem before_self (a : Instant) : a.before a = false := by
  simp [before]

theorem before_asymm (h : a.before b = true) : b.before a = false := by
  simp only [before, Bool.or_eq_true, Bool.and_eq_true, decide_eq_true_iff, beq_iff_eq] at h
  simp only [before, Bool.or_eq_false_iff, Bool.and_eq_false_iff, decide_eq_false_iff_not,
    beq_eq_false_iff_ne]
  omega

theorem ranks : Ranks fun a b : Instant => a.before b = true where
  asymm h := Bool.eq_false_iff.mp (before_asymm h)
  trans hba hcb := Bool.eq_false_iff.mp
    (not_before_trans (Bool.eq_false_iff.mpr hcb) (Bool.eq_false_iff.mpr hba))

end Instant

/-! ## versions by age -/

/-- a version is older than another one -/
def Version.Older (v w : Version) : Prop := v.createdAt.before w.createdAt = true

instance : DecidableRel Version.Older := fun v w => inferInstanceAs (Decidable (v.createdAt.before w.createdAt = true))

namespace Store

theorem insertByAge_eq (v : Version) (vs : List Version) : insertByAge v vs = vs.orderedInsert Version.Older v := by
  induction vs with
  | nil => rfl
  | cons w ws ih =>
    rw [insertByAge, ih, List.orderedInsert_cons]
    rfl

theorem sortByAge_eq (vs : List Version) :
    sortByAge vs = vs.foldl (fun acc v => acc.orderedInsert Version.Older v) [] :=
  congrArg (fun f => vs.foldl f []) (funext fun acc => funext fun v => insertByAge_eq v acc)

theorem sortByAge_perm (vs : List Version) : (sortByAge vs).Perm vs := by
  have hperm := foldl_perm Version.Older vs []
  rw [← sortByAge_eq, List.append_nil] at hperm
  exact hperm

theorem sortByAge_sorted (vs : List Version) : Sorted Version.Older (sortByAge vs) := by
  rw [sortByAge_eq]
  exact foldl_sorted (Instant.ranks.on Version.createdAt) vs List.Pairwise.nil

theorem mem_sortByAge (x : Version) (vs : List Version) : x ∈ sortByAge vs ↔ x ∈ vs := (sortByAge_perm vs).mem_iff

theorem listVersions_saveVersion_self (s : Store) (v : Version) :
    (s.saveVersion v).listVersions v.workflowId =
      sortByAge ((s.listVersions v.workflowId).filter (fun w => w.label ≠ v.label) ++ [v]) := by
  unfold saveVersion
  rw [listVersions, Dict.get?_insert_self]
  rfl

theorem listVersions_saveVersion_of_ne (s : Store) (v : Version) {id : String}
    (h : id ≠ v.workflowId) : (s.saveVersion v).listVersions id = s.listVersions id := by
  have hget : Dict.get? (s.saveVersion v).versions id = Dict.get? s.versions id :=
    Dict.get?_insert_of_ne _ _ h
  rw [listVersions, listVersions, hget]

/-- a version in the list of another, after it was saved -/
theorem mem_saveVersion {s : Store} {v x : Version} {id : String}
    (h : x ∈ (s.saveVersion v).listVersions id) :
    (x = v ∧ id = v.workflowId) ∨ (x ∈ s.listVersions id ∧
    (id = v.workflowId → x.label ≠ v.label)) := by
  by_cases hid : id = v.workflowId
  · subst hid
    rw [listVersions_saveVersion_self, mem_sortByAge, List.mem_append, List.mem_singleton,
      List.mem_filter] at h
    rcases h with ⟨hx, hl⟩ | rfl
    · exact .inr ⟨hx, fun _ => of_decide_eq_true hl⟩
    · exact .inl ⟨rfl, rfl⟩
  · rw [listVersions_saveVersion_of_ne s v hid] at h
    exact .inr ⟨h, fun he => absurd he hid⟩

/-- other versions stay in their list -/
theorem mem_saveVersion_of_mem {s : Store} {v x : Version} {id : String} (h : x ∈ s.listVersions id)
    (hx : v.workflowId = id → v.label ≠ x.label) : x ∈ (s.saveVersion v).listVersions id := by
  by_cases hid : id = v.workflowId
  · subst hid
    rw [listVersions_saveVersion_self, mem_sortByAge, List.mem_append, List.mem_filter]
    exact .inl ⟨h, decide_eq_true fun he => hx rfl he.symm⟩
  · rw [listVersions_saveVersion_of_ne s v hid]
    exact h

/-! ## saved stores -/

/-- words that select a version without being the label of one -/
def versionWords : List String := ["", latestToken, publishedToken]

/-- A store whose definitions and versions were saved under their own ids, and versions under labels
that are no words for others. -/
inductive Saved : Store → Prop
  | empty {s : Store} (hw : s.workflows = []) (hv : s.versions = []) : Saved s
  | workflow {s : Store} (h : Saved s) (d : Definition) : Saved (s.saveWorkflow d)
  | version {s : Store} (h : Saved s) (v : Version) (hid : v.definition.id = v.workflowId)
    (hl : v.label ∉ versionWords) : Saved (s.saveVersion v)

/-- What lookups find: definitions under their own ids, and one version for each label. -/
structure Filed (s : Store) : Prop where
  workflow : ∀ id d, s.getWorkflow? id = some d → d.id = id
  version : ∀ id, ∀ v ∈ s.listVersions id, v.definition.id = id ∧ v.label ∉ versionWords
  labels : ∀ id, ∀ v ∈ s.listVersions id, ∀ x ∈ s.listVersions id, v.label = x.label → v = x

/-- A store whose versions were saved under the ids of their definitions, and under labels that are
no words for others. -/
inductive Shelved : Store → Prop
  | empty {s : Store} (hv : s.versions = []) : Shelved s
  | version {s : Store} (h : Shelved s) (v : Version) (hid : v.definition.id = v.workflowId)
    (hl : v.label ∉ versionWords) : Shelved (s.saveVersion v)
  /-- anything else was changed -/
  | other {s t : Store} (h : Shelved s) (hv : t.versions = s.versions) : Shelved t

/-- What lookups of versions find: one for each label, of a definition with the id that is asked
for. -/
structure Shelf (s : Store) : Prop where
  version : ∀ id, ∀ v ∈ s.listVersions id, v.definition.id = id ∧ v.label ∉ versionWords
  labels : ∀ id, ∀ v ∈ s.listVersions id, ∀ x ∈ s.listVersions id, v.label = x.label → v = x

theorem Filed.shelf {s : Store} (h : s.Filed) : s.Shelf := ⟨h.version, h.labels⟩

theorem Shelf.saveVersion {s : Store} (h : s.Shelf) {v : Version}
    (hid : v.definition.id = v.workflowId)
    (hl : v.label ∉ versionWords) : (s.saveVersion v).Shelf := by
  refine ⟨fun id x hx => ?_, fun id x hx y hy hxy => ?_⟩
  · rcases mem_saveVersion hx with ⟨rfl, rfl⟩ | ⟨hx, _⟩
    · exact ⟨hid, hl⟩
    · exact h.version id x hx
  · rcases mem_saveVersion hx with ⟨rfl, rfl⟩ | ⟨hx, hxv⟩
    · rcases mem_saveVersion hy with ⟨rfl, _⟩ | ⟨_, hyv⟩
      · rfl
      · exact absurd hxy.symm (hyv rfl)
    · rcases mem_saveVersion hy with ⟨rfl, he⟩ | ⟨hy, _⟩
      · exact absurd hxy (hxv he)
      · exact h.labels id x hx y hy hxy

theorem listVersions_of_versions {s t : Store} (h : t.versions = s.versions) (id : String) :
    t.listVersions id = s.listVersions id := by
  rw [listVersions, listVersions, h]

theorem listVersions_of_empty {s : Store} (h : s.versions = []) (id : String) :
    s.listVersions id = [] := by
  rw [listVersions, h]
  rfl

theorem Shelved.shelf {s : Store} (h : s.Shelved) : s.Shelf := by
  induction h with
  | empty hv =>
    refine ⟨fun id v hmem => ?_, fun id v hmem => ?_⟩
    · rw [listVersions_of_empty hv] at hmem
      cases hmem
    · rw [listVersions_of_empty hv] at hmem
      cases hmem
  | version _ v hid hl ih => exact ih.saveVersion hid hl
  | other _ hv ih =>
    refine ⟨fun id v hmem => ?_, fun id v hmem x hx => ?_⟩
    · rw [listVersions_of_versions hv] at hmem
      exact ih.version id v hmem
    · rw [listVersions_of_versions hv] at hmem hx
      exact ih.labels id v hmem x hx

theorem Filed.saveWorkflow {s : Store} (h : s.Filed) (d : Definition) :
    (s.saveWorkflow d).Filed := by
  refine ⟨fun id d' hd => ?_, h.version, h.labels⟩
  by_cases he : id = d.id
  · subst he
    have hsaved : (s.saveWorkflow d).getWorkflow? d.id = some d :=
      Dict.get?_insert_self s.workflows d.id d
    cases Option.some.inj (hsaved.symm.trans hd)
    rfl
  · have hother : (s.saveWorkflow d).getWorkflow? id = s.getWorkflow? id :=
      Dict.get?_insert_of_ne s.workflows d he
    exact h.workflow id d' (hother.symm.trans hd)

theorem Filed.saveVersion {s : Store} (h : s.Filed) {v : Version}
    (hid : v.definition.id = v.workflowId)
    (hl : v.label ∉ versionWords) : (s.saveVersion v).Filed :=
  ⟨h.workflow, (h.shelf.saveVersion hid hl).version, (h.shelf.saveVersion hid hl).labels⟩

theorem Saved.filed {s : Store} (h : s.Saved) : s.Filed := by
  induction h with
  | @empty s hw hv =>
    have hshelf := (Shelved.empty hv).shelf
    refine ⟨fun id d hd => ?_, hshelf.version, hshelf.labels⟩
    rw [getWorkflow?, hw] at hd
    cases hd
  | workflow _ d ih => exact ih.saveWorkflow d
  | version _ v hid hl ih => exact ih.saveVersion hid hl

end Store

/-! ## lookups -/

namespace Version
variable {v : Version} {vs : List Version}

/-- A version that is not older than those in front of it, and younger than those behind it. -/
def Newest (vs : List Version) (v : Version) : Prop :=
  ∃ earlier later, vs = earlier ++ v :: later ∧ (∀ w ∈ earlier, ¬v.Older w) ∧ ∀ w ∈ later, w.Older v

/-- no version is younger than the newest one -/
theorem Newest.youngest (h : Newest vs v) : ∀ x ∈ vs, ¬v.Older x := by
  obtain ⟨earlier, later, rfl, hearlier, hlater⟩ := h
  intro x hx
  rcases List.mem_append.mp hx with hx | hx
  · exact hearlier x hx
  · rcases List.mem_cons.mp hx with rfl | hx
    · exact Bool.eq_false_iff.mp (Instant.before_self _)
    · exact Instant.ranks.asymm (hlater x hx)

theorem newest?_concat (vs : List Version) (w : Version) :
    newest? (vs ++ [w]) = match newest? vs with
      | some b => if w.createdAt.before b.createdAt then some b else some w
      | none => some w :=
  List.foldl_concat _ _ _ _

theorem newest_singleton (w : Version) : Newest [w] w :=
  ⟨[], [], rfl, List.forall_mem_nil _, List.forall_mem_nil _⟩

theorem Newest.concat (h : Newest vs v) (w : Version) :
    Newest (vs ++ [w]) (if w.createdAt.before v.createdAt then v else w) := by
  have hyoungest := h.youngest
  obtain ⟨earlier, later, rfl, hearlier, hlater⟩ := h
  split
  · next hwv =>
    refine ⟨earlier, later ++ [w], List.append_assoc _ _ _, hearlier, fun x hx => ?_⟩
    rcases List.mem_append.mp hx with hx | hx
    · exact hlater x hx
    · rw [List.mem_singleton.mp hx]
      exact hwv
  · next hwv => exact ⟨_, [], rfl, fun x hx => Instant.ranks.trans (hyoungest x hx) hwv, List.forall_mem_nil _⟩

/-- The induction is on the last version that is compared with the best one. -/
theorem newest?_spec (vs : List Version) : match newest? vs with
    | none => vs = []
    | some v => Newest vs v := by
  induction vs using List.reverseRecOn with
  | nil => rfl
  | append_singleton ws w ih =>
    rw [newest?_concat]
    cases hbest : newest? ws with
    | none =>
      rw [hbest] at ih
      rw [ih]
      exact newest_singleton w
    | some b =>
      rw [hbest] at ih
      simp only [← apply_ite some]
      exact Newest.concat ih w

theorem newest?_newest (h : newest? vs = some v) : Newest vs v := by
  have hspec := newest?_spec vs
  rw [h] at hspec
  exact hspec

/-- No version is younger than the newest one. -/
theorem newest?_youngest (h : newest? vs = some v) :
    v ∈ vs ∧ ∀ x ∈ vs, v.createdAt.before x.createdAt = false := by
  have hnewest := newest?_newest h
  refine ⟨?_, fun x hx => Bool.eq_false_iff.mpr (hnewest.youngest x hx)⟩
  obtain ⟨earlier, later, rfl, _⟩ := hnewest
  exact List.mem_append_right earlier List.mem_cons_self

end Version

theorem Version.mem_of_select {v : Version} {vs : List Version} {token : String}
    (h : select? vs token = some v) : v ∈ vs := by
  unfold select? at h
  split at h
  · exact (List.mem_filter.mp (newest?_youngest h).1).1
  · exact List.mem_of_find?_eq_some h

namespace Store

/-- A version is the only one in its list with its label. -/
structure Pins (s : Store) (workflowId : String) (v : Version) : Prop where
  stored : v ∈ s.listVersions workflowId
  only : ∀ x ∈ s.listVersions workflowId, x.label = v.label → x = v

namespace Pins
variable {s t : Store} {workflowId : String} {v : Version}

theorem of_versions (h : s.Pins workflowId v) (ht : t.versions = s.versions) :
    t.Pins workflowId v := by
  have hlist := listVersions_of_versions ht workflowId
  refine ⟨?_, fun x hx => ?_⟩
  · rw [hlist]
    exact h.stored
  · rw [hlist] at hx
    exact h.only x hx

/-- a version is saved under another label, or for another workflow -/
theorem saveVersion (h : s.Pins workflowId v) {x : Version}
    (hx : x.workflowId = workflowId → x.label ≠ v.label) :
    (s.saveVersion x).Pins workflowId v := by
  refine ⟨mem_saveVersion_of_mem h.stored hx, fun y hy hlabel => ?_⟩
  rcases mem_saveVersion hy with ⟨rfl, rfl⟩ | ⟨hy, _⟩
  · exact absurd hlabel (hx rfl)
  · exact h.only y hy hlabel

/-- the label of a version selects it again -/
theorem resolve? (h : s.Pins workflowId v) (hl : v.label ∉ versionWords) :
    s.resolve? workflowId v.label = some v.definition := by
  have hlive : ¬ (v.label = "" || v.label = latestToken) = true := by
    intro hw
    rcases Bool.or_eq_true_iff.mp hw with hw | hw
    · exact hl (of_decide_eq_true hw ▸ by decide)
    · exact hl (of_decide_eq_true hw ▸ by decide)
  have hpublished : v.label ≠ publishedToken := fun hw => hl (hw ▸ by decide)
  have hfind : ((s.listVersions workflowId).find? fun w => w.label = v.label) = some v := by
    cases hfind : (s.listVersions workflowId).find? fun w => w.label = v.label with
    | none =>
      have := List.find?_eq_none.mp hfind v h.stored
      exact absurd (decide_eq_true rfl) this
    | some w =>
      have hlabel := List.find?_some hfind
      simp only [decide_eq_true_eq] at hlabel
      rw [h.only w (List.mem_of_find?_eq_some hfind) hlabel]
  rw [Store.resolve?, resolvePinned?, if_neg hlive, Version.select?, if_neg hpublished, hfind]
  rfl

end Pins

theorem Shelf.pins {s : Store} (h : s.Shelf) {id : String} {v : Version}
    (hv : v ∈ s.listVersions id) : s.Pins id v :=
  ⟨hv, fun x hx hlabel => h.labels id x hx v hv hlabel⟩

end Store

namespace Store.Filed
variable {s : Store}

/-- the label of a version selects it again -/
theorem resolve?_label (h : s.Filed) {id : String} {v : Version} (hv : v ∈ s.listVersions id) :
    s.resolve? id v.label = some v.definition :=
  (h.shelf.pins hv).resolve? (h.version id v hv).2

/-- **An instance finds the definition again that its start has selected.** -/
theorem definitionOf?_of_requested (h : s.Filed) {r : StartRequest} {d : Definition}
    {pinned : Option String}
    (hr : Engine.requested? s r = some (d, pinned)) {i : Instance} (hid : i.workflowId = d.id)
    (hv : i.workflowVersion = pinned) : Engine.definitionOf? s i = some d := by
  have hlive : (s.getWorkflow? r.workflowId).map (·, (none : Option String)) = some (d, pinned) →
      Engine.definitionOf? s i = some d := by
    intro hw
    obtain ⟨d', hd, he⟩ := Option.map_eq_some_iff.mp hw
    cases he
    rw [Engine.definitionOf?, hv, hid, h.workflow _ _ hd]
    exact hd
  unfold Engine.requested? at hr
  split at hr
  · next token ht =>
    unfold resolvePinned? at hr
    split at hr
    · exact hlive hr
    · obtain ⟨v, hsel, he⟩ := Option.map_eq_some_iff.mp hr
      cases he
      have hmem := Version.mem_of_select hsel
      rw [Engine.definitionOf?, hv, hid, (h.version _ v hmem).1]
      exact h.resolve?_label hmem
  · exact hlive hr

end Store.Filed
end Workflows
