import Workflows.Proofs.Store.Saved

/-!
# Saved versions

Versions of a workflow are saved in any order of labels and dates, and a version takes the place of any other one with
its label.

* `saved`            a store in which some versions were saved, one after the other
* `lastSaved?`       the version that was saved last under a label
* `Catalog`          lists that hold the last version of each label, by age
* `LatestPublished`  the published version that is selected from a list

Main statements: each saved version keeps the lists a catalog (`Catalog.saveVersion`), so that labels select what was
last saved under them, and the word for published versions the youngest of these (`versions_catalogued`).
-/

namespace Workflows
open Insertion

variable {s : Store} {saves vs : List Version} {v w : Version} {id label : String}

namespace Store

/-- a store in which some versions were saved, one after the other -/
def saved (saves : List Version) : Store := saves.foldl saveVersion {}

/-- the version that was saved last under a label -/
def lastSaved? (saves : List Version) (id label : String) : Option Version :=
  saves.reverse.find? fun v => v.workflowId = id ∧ v.label = label

theorem saved_concat (saves : List Version) (v : Version) : saved (saves ++ [v]) = (saved saves).saveVersion v :=
  List.foldl_concat _ _ _ _

theorem lastSaved?_concat (saves : List Version) (v : Version) (id label : String) :
    lastSaved? (saves ++ [v]) id label =
      if v.workflowId = id ∧ v.label = label then some v else lastSaved? saves id label := by
  rw [lastSaved?, List.reverse_concat, List.find?_cons]
  by_cases h : v.workflowId = id ∧ v.label = label
  · rw [if_pos h, decide_eq_true h]
  · rw [if_neg h, decide_eq_false h]
    rfl

/-! ## catalogs -/

/-- The list of each workflow holds the version that was last saved under each label, and no other; the oldest version
comes first. -/
structure Catalog (s : Store) (saves : List Version) : Prop where
  labels : ∀ id, ((s.listVersions id).map (·.label)).Nodup
  byAge : ∀ id, Sorted Version.Older (s.listVersions id)
  last : ∀ id v, v ∈ s.listVersions id ↔ lastSaved? saves id v.label = some v

theorem saveVersion_perm (s : Store) (v : Version) :
    ((s.saveVersion v).listVersions v.workflowId).Perm
      (v :: (s.listVersions v.workflowId).filter fun w => w.label ≠ v.label) := by
  rw [listVersions_saveVersion_self]
  exact (sortByAge_perm _).trans List.perm_append_comm

/-- **A saved version takes the place of the one with its label.** -/
theorem Catalog.saveVersion (h : Catalog s saves) (v : Version) : Catalog (s.saveVersion v) (saves ++ [v]) where
  labels id := by
    by_cases hid : id = v.workflowId
    · rw [hid, ((saveVersion_perm s v).map _).nodup_iff, List.map_cons, List.nodup_cons]
      refine ⟨fun hmem => ?_, (List.filter_sublist.map _).nodup (h.labels _)⟩
      obtain ⟨w, hw, hlabel⟩ := List.mem_map.mp hmem
      exact of_decide_eq_true (List.mem_filter.mp hw).2 hlabel
    · rw [listVersions_saveVersion_of_ne s v hid]
      exact h.labels id
  byAge id := by
    by_cases hid : id = v.workflowId
    · rw [hid, listVersions_saveVersion_self]
      exact sortByAge_sorted _
    · rw [listVersions_saveVersion_of_ne s v hid]
      exact h.byAge id
  last id w := by
    rw [lastSaved?_concat]
    by_cases hid : id = v.workflowId
    · rw [hid, (saveVersion_perm s v).mem_iff, List.mem_cons, List.mem_filter, h.last, decide_eq_true_iff]
      by_cases hlabel : w.label = v.label
      · rw [if_pos ⟨rfl, hlabel.symm⟩, Option.some.injEq]
        exact ⟨fun hw => hw.elim Eq.symm fun hw => absurd hlabel hw.2, fun hw => .inl hw.symm⟩
      · rw [if_neg fun hsame => hlabel hsame.2.symm]
        refine ⟨fun hw => hw.elim (fun hw => absurd (congrArg Version.label hw) hlabel) And.left, fun hw => ?_⟩
        exact .inr ⟨hw, hlabel⟩
    · rw [listVersions_saveVersion_of_ne s v hid, h.last, if_neg fun hsame => hid hsame.1.symm]

/-- The induction is on the version that was saved last. -/
theorem saved_catalog (saves : List Version) : Catalog (saved saves) saves := by
  induction saves using List.reverseRecOn with
  | nil =>
    have hempty (id : String) : (saved []).listVersions id = [] := listVersions_of_empty rfl id
    refine ⟨fun id => ?_, fun id => ?_, fun id v => ?_⟩
    · rw [hempty]
      exact List.nodup_nil
    · rw [hempty]
      exact List.Pairwise.nil
    · rw [hempty]
      exact iff_of_false List.not_mem_nil (Option.some_ne_none v).symm
  | append_singleton saves v ih =>
    rw [saved_concat]
    exact ih.saveVersion v

/-! ## what is selected -/

theorem label_of_lastSaved? (h : lastSaved? saves id label = some v) : v.label = label := by
  have hsame := List.find?_some h
  exact (of_decide_eq_true hsame).2

theorem Catalog.find?_label (h : Catalog s saves) (id label : String) :
    ((s.listVersions id).find? fun v => v.label = label) = lastSaved? saves id label := by
  cases hfind : (s.listVersions id).find? fun v => v.label = label with
  | some w =>
    have hw := (h.last id w).mp (List.mem_of_find?_eq_some hfind)
    have hlabel := List.find?_some hfind
    rw [← hw, of_decide_eq_true hlabel]
  | none =>
    symm
    refine Option.eq_none_iff_forall_ne_some.mpr fun w hw => ?_
    have hlabel := label_of_lastSaved? hw
    have hmem : w ∈ s.listVersions id := (h.last id w).mpr (hlabel.symm ▸ hw)
    exact List.find?_eq_none.mp hfind w hmem (decide_eq_true hlabel)

/-- a label that is no word for other versions selects what was last saved under it -/
theorem Catalog.resolvePinned? (h : Catalog s saves) (id : String) (hlabel : label ∉ versionWords) :
    s.resolvePinned? id label = (lastSaved? saves id label).map fun v => (v.definition, some v.label) := by
  simp only [versionWords, List.mem_cons, List.not_mem_nil, or_false, not_or] at hlabel
  obtain ⟨hempty, hlatest, hpublished⟩ := hlabel
  have hlive : ¬(label = "" || label = latestToken) = true := by
    rw [Bool.or_eq_true, decide_eq_true_iff, decide_eq_true_iff]
    exact fun hword => hword.elim hempty hlatest
  rw [Store.resolvePinned?, if_neg hlive, Version.select?, if_neg hpublished, h.find?_label]

/-- A published version that no other published one is younger than, and behind all that are as young. -/
def LatestPublished (vs : List Version) (v : Version) : Prop :=
  ∃ earlier later, vs = earlier ++ v :: later ∧ v.status = .published ∧
    (∀ w ∈ earlier, w.status = .published → ¬v.Older w) ∧ ∀ w ∈ later, w.status = .published → w.Older v

theorem latestPublished_of_newest (h : Version.Newest (vs.filter fun w => w.status = .published) v) :
    LatestPublished vs v := by
  obtain ⟨earlier, later, hsplit, hearlier, hlater⟩ := h
  obtain ⟨vs₁, vs₂, rfl, rfl, hrest⟩ := List.filter_eq_append_iff.mp hsplit
  obtain ⟨skipped, vs₃, rfl, hskipped, hv, rfl⟩ := List.filter_eq_cons_iff.mp hrest
  refine ⟨vs₁ ++ skipped, vs₃, (List.append_assoc _ _ _).symm, of_decide_eq_true hv, ?_, ?_⟩
  · intro w hw hpublished
    rcases List.mem_append.mp hw with hw | hw
    · exact hearlier w (List.mem_filter.mpr ⟨hw, decide_eq_true hpublished⟩)
    · exact absurd (decide_eq_true hpublished) (hskipped w hw)
  · exact fun w hw hpublished => hlater w (List.mem_filter.mpr ⟨hw, decide_eq_true hpublished⟩)

theorem resolvePinned?_published (s : Store) (id : String) :
    match s.resolvePinned? id publishedToken with
    | some (d, pinned) => ∃ v, LatestPublished (s.listVersions id) v ∧ d = v.definition ∧ pinned = some v.label
    | none => ∀ v ∈ s.listVersions id, v.status ≠ .published := by
  have hlive : ¬(publishedToken = "" || publishedToken = latestToken) = true := by decide
  rw [resolvePinned?, if_neg hlive, Version.select?, if_pos rfl]
  have hspec := Version.newest?_spec ((s.listVersions id).filter fun v => v.status = .published)
  cases hnewest : Version.newest? ((s.listVersions id).filter fun v => v.status = .published) with
  | some v =>
    rw [hnewest] at hspec
    exact ⟨v, latestPublished_of_newest hspec, rfl, rfl⟩
  | none =>
    rw [hnewest] at hspec
    intro v hv hpublished
    exact List.filter_eq_nil_iff.mp hspec v hv (decide_eq_true hpublished)

/-- **Labels select what was last saved under them.** The list of a workflow has one version for each label and the
oldest in front. The word for published versions selects the youngest of these, the last one in the list where several
are. -/
theorem versions_catalogued (saves : List Version) (id label : String) (hlabel : label ∉ versionWords) :
    Catalog (saved saves) saves ∧
    ((saved saves).resolvePinned? id label =
      (lastSaved? saves id label).map fun v => (v.definition, some v.label)) ∧
    match (saved saves).resolvePinned? id publishedToken with
    | some (d, pinned) =>
      ∃ v, LatestPublished ((saved saves).listVersions id) v ∧ d = v.definition ∧ pinned = some v.label
    | none => ∀ v ∈ (saved saves).listVersions id, v.status ≠ .published :=
  ⟨saved_catalog saves, (saved_catalog saves).resolvePinned? id hlabel, resolvePinned?_published _ id⟩

namespace Sample

def order (version : Nat) : Definition :=
  ⟨"order", "order", none, .published, version, true, [⟨"begin", .start, none, .null⟩], []⟩

def version (label : String) (status : Lifecycle) (second : Int) (number : Nat) : Version :=
  ⟨"order", label, status, ⟨second, 0⟩, order number⟩

/-- the youngest published version is replaced by a draft, and two equally young ones are left -/
def orderVersions : List Version :=
  [version "one" .published 3 1, version "two" .published 2 2, version "three" .published 2 3,
    version "one" .draft 1 4]

end Sample

theorem versions_catalogued_replaced :
    (saved Sample.orderVersions).resolvePinned? "order" "one" = some (Sample.order 4, some "one") ∧
    ∃ v, LatestPublished ((saved Sample.orderVersions).listVersions "order") v ∧ Sample.order 3 = v.definition ∧
      some "three" = some v.label := by
  obtain ⟨_, hone, hpublished⟩ := versions_catalogued Sample.orderVersions "order" "one" (by decide)
  have hthree : (saved Sample.orderVersions).resolvePinned? "order" publishedToken = some (Sample.order 3, some "three") := by
    decide +kernel
  rw [hthree] at hpublished
  exact ⟨hone.trans (by decide +kernel), hpublished⟩

/-- The word for the live definition does not select a version that was saved under it. -/
theorem label_latest_unselected :
    lastSaved? [Sample.version latestToken .draft 1 1] "order" latestToken =
        some (Sample.version latestToken .draft 1 1) ∧
      (saved [Sample.version latestToken .draft 1 1]).listVersions "order" =
        [Sample.version latestToken .draft 1 1] ∧
      (saved [Sample.version latestToken .draft 1 1]).resolvePinned? "order" latestToken = none := by
  decide +kernel

end Store
end Workflows
