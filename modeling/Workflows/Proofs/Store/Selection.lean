import Workflows.Store.Records
import Workflows.Proofs.Store.Children

/-!
# Selected records

Records are found, changed and dropped by criteria.  Each of the three operations goes through a collection in its own
way, and all of them are to select the same records.

* `selected`    the records that satisfy criteria
* `Replaced`    a store in which one collection has other records
* `RecordCall`  an operation on a collection
* `Filled`      a store whose records were all put there by operations
* `Changed`     a record that is changed where it satisfies criteria, and else as it was

Main statements: a store that was filled by operations has objects for records (`Filled.objects`), so that all
operations with the same criteria agree (`operations_agree`).
-/

namespace Workflows

namespace Dict
variable {α : Type} {d upper : Dict α} {key : String}

theorem get?_eq_none (h : key ∉ keys d) : get? d key = none := by
  cases hget : get? d key with
  | none => rfl
  | some value => exact absurd (mem_keys_of_get? hget) h

theorem get?_reverse (h : (keys d).Nodup) : get? d.reverse key = get? d key := by
  induction d with
  | nil => rfl
  | cons e d ih =>
    obtain ⟨hhead, hrest⟩ := List.nodup_cons.mp h
    rw [List.reverse_cons, get?_append, ih hrest, get?_cons e [], get?_cons e d]
    by_cases hkey : key = e.1
    · have habsent : get? d key = none := get?_eq_none (hkey ▸ hhead)
      rw [habsent, Option.none_or, if_pos hkey, if_pos hkey]
    · rw [if_neg hkey, if_neg hkey]
      exact Option.or_none

theorem get?_overlay_ordered (d : Dict α) (h : upper.Ordered) (key : String) :
    get? (overlay d upper) key = (get? upper key).or (get? d key) := by
  rw [get?_overlay, get?_reverse h.keys_nodup]

end Dict

namespace Store
variable {s t : Store} {collection other reason : String} {criteria fields : Vars} {rs rs' : List Json}

/-- the records of a collection that satisfy criteria -/
def selected (s : Store) (collection : String) (criteria : Vars) : List Json :=
  (s.records collection).filter (·.satisfies criteria)

/-! ## stores with other records -/

/-- A store in which one collection has other records. -/
structure Replaced (s t : Store) (collection : String) (rs : List Json) : Prop where
  records : t.records collection = rs
  others : ∀ other, other ≠ collection → Dict.get? t.collections other = Dict.get? s.collections other
  /-- apart from collections, and from how often they were used -/
  rest : { t with collections := s.collections, calls := s.calls } = s

theorem Replaced.failing (h : s.Replaced t collection rs) : t.failing = s.failing := by
  have hfailing := congrArg Store.failing h.rest
  exact hfailing

theorem Replaced.records_of_ne (h : s.Replaced t collection rs) (hother : other ≠ collection) :
    t.records other = s.records other := by
  rw [Store.records, Store.records, h.others other hother]

theorem touch_replaced (s : Store) (collection : String) :
    s.Replaced (s.touch collection) collection (s.records collection) :=
  ⟨rfl, fun _ _ => rfl, rfl⟩

theorem setRecords_replaced (s : Store) (collection : String) (rs : List Json) :
    s.Replaced ((s.touch collection).setRecords collection rs) collection rs where
  records := by
    rw [records, setRecords, Dict.get?_insert_self]
    rfl
  others _ hother := Dict.get?_insert_of_ne _ _ hother
  rest := rfl

/-! ## one operation -/

theorem access_failing {α : Type} (h : Dict.get? s.failing collection = some reason)
    (f : Store → Except StorageError α × Store) :
    s.access collection f = (.error (.backend reason), s.touch collection) := by
  rw [access, h]

theorem access_open {α : Type} (h : Dict.get? s.failing collection = none)
    (f : Store → Except StorageError α × Store) : s.access collection f = f (s.touch collection) := by
  rw [access, h]

theorem find_open (h : Dict.get? s.failing collection = none) (criteria : Vars) :
    s.find collection criteria = (.ok (s.selected collection criteria), s.touch collection) :=
  access_open h _

theorem insert_open (h : Dict.get? s.failing collection = none) (record : Json) (freshId : String) :
    s.Replaced (s.insert collection record freshId).2 collection (s.records collection) ∨
      ∃ members, s.Replaced (s.insert collection record freshId).2 collection
        (s.records collection ++ [.obj members]) := by
  rw [insert, access_open h]
  cases record with
  | obj members => exact .inr ⟨_, setRecords_replaced s collection _⟩
  | _ => exact .inl (touch_replaced s collection)

theorem isRecord_overlay (fields : Vars) (r : Json) : isRecord (overlay fields r) = isRecord r := by
  cases r <;> rfl

/-- whether an update changes a record -/
def chosen (criteria : Vars) (r : Json) : Bool := r.satisfies criteria && isRecord r

/-- a collection that was never used has no records to choose from -/
theorem records_of_none (h : Dict.get? s.collections collection = none) : s.records collection = [] := by
  rw [records, h]
  rfl

theorem records_of_some (h : Dict.get? s.collections collection = some rs) : s.records collection = rs := by
  rw [records, h]
  rfl

theorem update_open (h : Dict.get? s.failing collection = none) (criteria fields : Vars) :
    (s.update collection criteria fields).1 = .ok ((s.records collection).filter (chosen criteria)).length ∧
      s.Replaced (s.update collection criteria fields).2 collection
        ((s.records collection).map fun r => if chosen criteria r then overlay fields r else r) := by
  rw [update, access_open h]
  cases hget : Dict.get? s.collections collection with
  | none =>
    have htouched : Dict.get? (s.touch collection).collections collection = none := hget
    have hreplaced := touch_replaced s collection
    rw [records_of_none hget] at hreplaced ⊢
    rw [htouched]
    exact ⟨rfl, hreplaced⟩
  | some rs =>
    have htouched : Dict.get? (s.touch collection).collections collection = some rs := hget
    rw [records_of_some hget, htouched]
    exact ⟨rfl, setRecords_replaced s collection _⟩

theorem delete_open (h : Dict.get? s.failing collection = none) (criteria : Vars) :
    (s.delete collection criteria).1 = .ok (s.selected collection criteria).length ∧
      s.Replaced (s.delete collection criteria).2 collection
        ((s.records collection).filter fun r => !r.satisfies criteria) := by
  rw [delete, access_open h]
  cases hget : Dict.get? s.collections collection with
  | none =>
    have htouched : Dict.get? (s.touch collection).collections collection = none := hget
    have hreplaced := touch_replaced s collection
    rw [selected, records_of_none hget] at *
    rw [htouched]
    exact ⟨rfl, hreplaced⟩
  | some rs =>
    have htouched : Dict.get? (s.touch collection).collections collection = some rs := hget
    rw [selected, records_of_some hget, htouched]
    exact ⟨rfl, setRecords_replaced s collection _⟩

/-! ## any operation -/

/-- An operation on a collection. -/
inductive RecordCall where
  | find (criteria : Vars)
  | insert (record : Json) (freshId : String)
  | update (criteria fields : Vars)
  | delete (criteria : Vars)

/-- whether an operation fails, and the store after it -/
def RecordCall.perform (s : Store) (collection : String) : RecordCall → Except StorageError Unit × Store
  | .find criteria => (s.find collection criteria).map (Except.map fun _ => ()) id
  | .insert record freshId => (s.insert collection record freshId).map (Except.map fun _ => ()) id
  | .update criteria fields => (s.update collection criteria fields).map (Except.map fun _ => ()) id
  | .delete criteria => (s.delete collection criteria).map (Except.map fun _ => ()) id

namespace RecordCall

theorem perform_failing (h : Dict.get? s.failing collection = some reason) (c : RecordCall) :
    c.perform s collection = (.error (.backend reason), s.touch collection) := by
  cases c with
  | find criteria => rw [perform, Store.find, access_failing h]; rfl
  | insert record freshId => rw [perform, Store.insert, access_failing h]; rfl
  | update criteria fields => rw [perform, Store.update, access_failing h]; rfl
  | delete criteria => rw [perform, Store.delete, access_failing h]; rfl

/-- records that an operation leaves in a collection: objects, if there were only objects -/
theorem perform_replaced (s : Store) (collection : String) (c : RecordCall) :
    ∃ rs, s.Replaced (c.perform s collection).2 collection rs ∧
      ((∀ r ∈ s.records collection, isRecord r = true) → ∀ r ∈ rs, isRecord r = true) := by
  cases h : Dict.get? s.failing collection with
  | some reason =>
    rw [perform_failing h]
    exact ⟨_, touch_replaced s collection, id⟩
  | none =>
    cases c with
    | find criteria =>
      have hfind := find_open h criteria
      rw [perform, hfind]
      exact ⟨_, touch_replaced s collection, id⟩
    | insert record freshId =>
      rcases insert_open h record freshId with hsame | ⟨members, hone⟩
      · exact ⟨_, hsame, id⟩
      · refine ⟨_, hone, fun hall r hr => ?_⟩
        rcases List.mem_append.mp hr with hr | hr
        · exact hall r hr
        · rw [List.mem_singleton.mp hr]
          rfl
    | update criteria fields =>
      refine ⟨_, (update_open h criteria fields).2, fun hall r hr => ?_⟩
      obtain ⟨old, hold, rfl⟩ := List.mem_map.mp hr
      split
      · rw [isRecord_overlay]
        exact hall old hold
      · exact hall old hold
    | delete criteria =>
      exact ⟨_, (delete_open h criteria).2, fun hall r hr => hall r (List.mem_filter.mp hr).1⟩

end RecordCall

/-! ## any number of operations -/

/-- A store whose records were all put there by operations. -/
inductive Filled : Store → Prop
  | empty {s : Store} (h : s.collections = []) : Filled s
  | call {s : Store} (h : Filled s) (collection : String) (c : RecordCall) : Filled (c.perform s collection).2
  | markFailing {s : Store} (h : Filled s) (collection reason : String) : Filled (s.markFailing collection reason)

/-- The induction is on the operations that have filled the store. -/
theorem Filled.objects (h : s.Filled) (collection : String) : ∀ r ∈ s.records collection, isRecord r = true := by
  induction h generalizing collection with
  | empty h =>
    rw [records, h]
    intro r hr
    cases hr
  | @call s _ used c ih =>
    obtain ⟨rs, hreplaced, hrs⟩ := c.perform_replaced s used
    by_cases hcollection : collection = used
    · rw [hcollection, hreplaced.records]
      exact hrs (ih used)
    · rw [hreplaced.records_of_ne hcollection]
      exact ih collection
  | markFailing _ _ _ ih => exact ih collection

/-! ## agreement -/

/-- What an update makes of a record: where the record satisfies the criteria, the given fields have their new values
and all others the old ones. -/
def Changed (criteria fields : Vars) (old new : Json) : Prop :=
  if old.satisfies criteria then
    isRecord new = true ∧ ∀ key, new.member? key = (Dict.get? fields key).or (old.member? key)
  else new = old

/-- The operations with the same criteria select the same records of an open collection. -/
structure Agree (s : Store) (collection : String) (criteria fields : Vars) : Prop where
  found : (s.find collection criteria).1 = .ok (s.selected collection criteria)
  updated : (s.update collection criteria fields).1 = .ok (s.selected collection criteria).length
  deleted : (s.delete collection criteria).1 = .ok (s.selected collection criteria).length
  /-- nothing is found any more -/
  gone : ((s.delete collection criteria).2.find collection criteria).1 = .ok []
  /-- the others are left in their order -/
  left : (s.delete collection criteria).2.records collection =
    (s.records collection).filter fun r => !r.satisfies criteria
  /-- each record keeps its place -/
  places : List.Forall₂ (Changed criteria fields) (s.records collection)
    ((s.update collection criteria fields).2.records collection)

theorem chosen_of_isRecord {r : Json} (h : isRecord r = true) : chosen criteria r = r.satisfies criteria := by
  rw [chosen, h, Bool.and_true]

theorem overlay_changed (hfields : fields.Ordered) {r : Json} (h : isRecord r = true) :
    Changed criteria fields r (if chosen criteria r then overlay fields r else r) := by
  rw [chosen_of_isRecord h, Changed]
  split
  · rw [isRecord_overlay]
    refine ⟨h, ?_⟩
    cases r with
    | obj members => exact Dict.get?_overlay_ordered members hfields
    | _ => cases h
  · rfl

theorem agree_of_objects (hobjects : ∀ r ∈ s.records collection, isRecord r = true)
    (hopen : Dict.get? s.failing collection = none) (hfields : fields.Ordered) (criteria : Vars) :
    s.Agree collection criteria fields := by
  obtain ⟨hupdated, hchanged⟩ := update_open hopen criteria fields
  obtain ⟨hdeleted, hleft⟩ := delete_open hopen criteria
  have hchosen : (s.records collection).filter (chosen criteria) = s.selected collection criteria :=
    List.filter_congr fun r hr => chosen_of_isRecord (hobjects r hr)
  refine ⟨?_, ?_, hdeleted, ?_, hleft.records, ?_⟩
  · rw [find_open hopen]
  · rw [hupdated, hchosen]
  · have hstill : Dict.get? (s.delete collection criteria).2.failing collection = none := by
      rw [hleft.failing]
      exact hopen
    rw [find_open hstill, selected, hleft.records, List.filter_filter]
    simp
  · rw [hchanged.records, List.forall₂_map_right_iff, List.forall₂_same]
    exact fun r hr => overlay_changed hfields (hobjects r hr)

/-- **Finding, changing and dropping agree on the records that satisfy the criteria**, no operation reaches another
collection, and on a failing collection every operation fails and changes nothing. -/
theorem operations_agree (h : s.Filled) (collection : String) (criteria : Vars) (hfields : fields.Ordered) :
    (∀ (c : RecordCall) other, other ≠ collection →
      Dict.get? (c.perform s collection).2.collections other = Dict.get? s.collections other) ∧
    match Dict.get? s.failing collection with
    | none => s.Agree collection criteria fields
    | some reason => ∀ c : RecordCall, (c.perform s collection).1 = .error (.backend reason) ∧
        (c.perform s collection).2.collections = s.collections := by
  constructor
  · intro c other hother
    obtain ⟨rs, hreplaced, _⟩ := c.perform_replaced s collection
    exact hreplaced.others other hother
  · cases hopen : Dict.get? s.failing collection with
    | none => exact agree_of_objects (h.objects collection) hopen hfields criteria
    | some reason =>
      intro c
      rw [RecordCall.perform_failing hopen]
      exact ⟨rfl, rfl⟩

namespace Sample

/-- a store with two orders, whose collection of audits is marked as failing -/
def orders : Store :=
  let first := RecordCall.perform {} "orders" (.insert (.obj [("state", .str "open"), ("total", .int 10)]) "a")
  let second := RecordCall.perform first.2 "orders" (.insert (.obj [("state", .str "open"), ("total", .int 20)]) "b")
  second.2.markFailing "audit" "service unavailable"

theorem orders_filled : orders.Filled :=
  .markFailing (.call (.call (.empty rfl) _ _) _ _) _ _

end Sample

/-- the order with the total `10.0` is found, closed and dropped, and the other one stays -/
theorem operations_agree_orders :
    Sample.orders.Agree "orders" [("total", .double 10.0)] [("state", .str "closed")] ∧
      (Sample.orders.selected "orders" [("total", .double 10.0)]).length = 1 ∧
      (RecordCall.perform Sample.orders "audit" (.delete [])).1 = .error (.backend "service unavailable") := by
  have hclosed : Dict.Ordered [("state", Json.str "closed")] := List.pairwise_singleton _ _
  have hnone : Dict.Ordered ([] : Vars) := List.Pairwise.nil
  have horders := operations_agree Sample.orders_filled "orders" [("total", .double 10.0)] hclosed
  have haudit := operations_agree Sample.orders_filled "audit" [] hnone
  exact ⟨horders.2, by decide +kernel, (haudit.2 (.delete [])).1⟩

end Store
end Workflows
