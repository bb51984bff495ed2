/-!
# Dictionaries in key order

A dictionary is its list of entries in ascending order of key (by code point).  Reading looks for the first
entry of a key and writing keeps the order, so every listing of a dictionary is in key order.
-/

namespace Workflows

/-- Entries by ascending key. -/
abbrev Dict (α : Type) := List (String × α)

namespace Dict
variable {α β : Type}

def empty : Dict α := []

/-- the value of a key -/
def get? : Dict α → String → Option α
  | [], _ => none
  | (k, v) :: d, key => if key = k then some v else get? d key

def contains (d : Dict α) (key : String) : Bool := (d.get? key).isSome

/-- the dictionary with `value` under `key` -/
def insert : Dict α → String → α → Dict α
  | [], key, value => [(key, value)]
  | (k, v) :: d, key, value =>
    if key = k then (key, value) :: d
    else if key < k then (key, value) :: (k, v) :: d
    else (k, v) :: insert d key value

/-- the dictionary without `key` -/
def erase (d : Dict α) (key : String) : Dict α := d.filter fun e => e.1 ≠ key

/-- the first dictionary overlaid with the second -/
def overlay (d : Dict α) (upper : Dict α) : Dict α := upper.foldl (fun acc e => insert acc e.1 e.2) d

/-- entries in any order; the last one of a key counts -/
def ofList (es : List (String × α)) : Dict α := overlay [] es

def keys (d : Dict α) : List String := d.map (·.1)

def values (d : Dict α) : List α := d.map (·.2)

def mapValues (f : α → β) (d : Dict α) : Dict β := d.map fun e => (e.1, f e.2)

@[simp] theorem get?_nil (key : String) : get? ([] : Dict α) key = none := rfl

theorem get?_cons (e : String × α) (d : Dict α) (key : String) :
    get? (e :: d) key = if key = e.1 then some e.2 else get? d key := rfl

theorem insert_nil (key : String) (value : α) : insert [] key value = [(key, value)] := rfl

theorem insert_cons (e : String × α) (d : Dict α) (key : String) (value : α) :
    insert (e :: d) key value = if key = e.1 then (key, value) :: d
      else if key < e.1 then (key, value) :: e :: d
      else e :: insert d key value := rfl

@[simp] theorem get?_insert_self (d : Dict α) (key : String) (value : α) :
    get? (insert d key value) key = some value := by
  induction d with
  | nil => rw [insert_nil, get?_cons, if_pos rfl]
  | cons e d ih =>
    rw [insert_cons]
    split
    · rw [get?_cons, if_pos rfl]
    · next hne =>
      split
      · rw [get?_cons, if_pos rfl]
      · rw [get?_cons, if_neg hne, ih]

theorem get?_insert_of_ne (d : Dict α) {key other : String} (value : α) (h : other ≠ key) :
    get? (insert d key value) other = get? d other := by
  induction d with
  | nil => rw [insert_nil, get?_cons, if_neg h]
  | cons e d ih =>
    rw [insert_cons]
    split
    · next heq => rw [get?_cons, get?_cons, ← heq, if_neg h, if_neg h]
    · split
      · rw [get?_cons, if_neg h]
      · rw [get?_cons, get?_cons, ih]

/-- a value that is replaced at once leaves no trace -/
theorem insert_insert_self (d : Dict α) (key : String) (a b : α) :
    insert (insert d key a) key b = insert d key b := by
  induction d with
  | nil => rw [insert_nil, insert_cons, if_pos rfl, insert_nil]
  | cons e d ih =>
    rw [insert_cons, insert_cons]
    split
    · rw [insert_cons, if_pos rfl]
    · next hne =>
      split
      · rw [insert_cons, if_pos rfl]
      · next hnlt => rw [insert_cons, if_neg hne, if_neg hnlt, ih]

/-! ### entries -/

theorem mem_of_get? {d : Dict α} {key : String} {value : α} (h : get? d key = some value) :
    (key, value) ∈ d := by
  induction d with
  | nil => cases h
  | cons e d ih =>
    rw [get?_cons] at h
    split at h
    · next he =>
      cases h
      rw [he]
      exact List.mem_cons_self
    · exact List.mem_cons_of_mem e (ih h)

theorem ne_of_get?_eq_none {d : Dict α} {key : String} {e : String × α} (h : get? d key = none)
    (he : e ∈ d) : e.1 ≠ key := by
  induction d with
  | nil => cases he
  | cons f d ih =>
    rw [get?_cons] at h
    split at h
    · cases h
    · next hne =>
      rcases List.mem_cons.mp he with rfl | he
      · exact fun heq => hne heq.symm
      · exact ih h he

theorem get?_append (d e : Dict α) (key : String) :
    get? (d ++ e) key = (get? d key).or (get? e key) := by
  induction d with
  | nil => rfl
  | cons f d ih =>
    rw [List.cons_append, get?_cons, get?_cons]
    split
    · rfl
    · exact ih

/-- of the entries that are laid over, the last one of a key counts -/
theorem get?_overlay (d upper : Dict α) (key : String) :
    get? (overlay d upper) key = (get? upper.reverse key).or (get? d key) := by
  induction upper generalizing d with
  | nil => rfl
  | cons e upper ih =>
    show get? (overlay (insert d e.1 e.2) upper) key = _
    rw [ih, List.reverse_cons, get?_append, Option.or_assoc]
    congr 1
    by_cases h : key = e.1
    · rw [h, get?_insert_self, get?_cons, if_pos rfl]
      rfl
    · rw [get?_insert_of_ne d e.2 h, get?_cons, if_neg h]
      rfl

theorem mem_of_mem_insert {d : Dict α} {key : String} {value : α} {e : String × α}
    (h : e ∈ insert d key value) : e = (key, value) ∨ e ∈ d := by
  induction d with
  | nil => exact .inl (List.mem_singleton.mp h)
  | cons f d ih =>
    rw [insert_cons] at h
    split at h
    · exact (List.mem_cons.mp h).imp_right (List.mem_cons_of_mem f)
    · split at h
      · exact List.mem_cons.mp h
      · rcases List.mem_cons.mp h with rfl | h
        · exact .inr List.mem_cons_self
        · exact (ih h).imp_right (List.mem_cons_of_mem f)

theorem mem_erase {d : Dict α} {key : String} {e : String × α} :
    e ∈ erase d key ↔ e ∈ d ∧ e.1 ≠ key := by
  rw [erase, List.mem_filter, decide_eq_true_iff]

@[simp] theorem get?_erase_self (d : Dict α) (key : String) : get? (erase d key) key = none := by
  cases h : get? (erase d key) key with
  | none => rfl
  | some value => exact absurd rfl (mem_erase.mp (mem_of_get? h)).2

theorem get?_erase_of_ne (d : Dict α) {key other : String} (h : other ≠ key) :
    get? (erase d key) other = get? d other := by
  induction d with
  | nil => rfl
  | cons e d ih =>
    by_cases he : e.1 = key
    · have hother : other ≠ e.1 := fun heq => h (heq.trans he)
      have herase : erase (e :: d) key = erase d key := by simp [erase, he]
      rw [herase, ih, get?_cons, if_neg hother]
    · have herase : erase (e :: d) key = e :: erase d key := by simp [erase, he]
      rw [herase, get?_cons, get?_cons, ih]

end Dict
end Workflows
