import Mathlib.Data.List.TakeWhile
import Workflows.Proofs.Engine.Kept

/-!
# Clients of a store

Clients read instances, change their copies and write them back, in any order.  A write is accepted
where the version of the copy is the stored one.  How far a copy is behind its instance is the
number of writes of others since the copy was last in step with it.

* `Access`    a call of a client
* `Shared`    a store, the copies of its clients, and notes of what they have done, the last first
* `Runs`      accesses in any order; nothing is inserted again
* `since`     what was done since a copy was in step
* `Fitting`   versions of copies and instances are what the notes say

Main statements: an access keeps versions fitting (`Fitting.access`), and a write is accepted if and
only if nobody else has written since (`write_accepted`).
-/

namespace Workflows.Clients

inductive Access (κ : Type) where
  | insert (i : Instance)
  | read (c : κ) (id : String)
  /-- a copy is changed, but for its id and its version -/
  | change (c : κ) (id : String) (content : Instance)
  | write (c : κ) (id : String)

inductive Note (κ : Type) where
  | inserted (id : String) (version : Nat)
  | read (c : κ) (id : String)
  | written (c : κ) (id : String)
  deriving DecidableEq

structure Shared (κ : Type) where
  store : Store
  copies : κ → String → Option Instance
  /-- what has been done, the last first -/
  notes : List (Note κ)

variable {κ : Type} {st : Store} {s t : Shared κ} {c d : κ} {id other : String} {i copy : Instance}
  {n : Note κ} {notes : List (Note κ)} {v : Nat}

/-- a store without clients -/
def Shared.of (st : Store) : Shared κ := ⟨st, fun _ _ => none, []⟩

def Shared.note (s : Shared κ) (n : Note κ) : Shared κ := { s with notes := n :: s.notes }

def Shared.insert (s : Shared κ) (i : Instance) : Shared κ :=
  { s with store := s.store.insertInstance i }

/-! ## what has been done -/

def Note.writes (id : String) : Note κ → Bool
  | .written _ other => other = id
  | _ => false

/-- how often an instance was written -/
def writesOf (id : String) (notes : List (Note κ)) : Nat := notes.countP (Note.writes id)

/-- the version that an instance had in the store at the beginning, or was inserted with -/
def Origin (st : Store) (notes : List (Note κ)) (id : String) (v : Nat) : Prop :=
  (∃ i, st.getInstance? id = some i ∧ i.version = v) ∨ .inserted id v ∈ notes

theorem writesOf_of_writes (h : n.writes id = true) :
    writesOf id (n :: notes) = writesOf id notes + 1 :=
  List.countP_cons_of_pos h

theorem writesOf_of_not_writes (h : n.writes id = false) :
    writesOf id (n :: notes) = writesOf id notes :=
  List.countP_cons_of_neg (by rw [h]; exact Bool.false_ne_true)

theorem writes_own (c : κ) (id : String) : Note.writes id (.written c id : Note κ) = true :=
  decide_eq_true rfl

theorem not_writes_of_ne (c : κ) (h : other ≠ id) :
    Note.writes other (.written c id : Note κ) = false :=
  decide_eq_false fun he => h he.symm

theorem Origin.cons (h : Origin st notes id v) : Origin st (n :: notes) id v :=
  h.imp_right (List.mem_cons_of_mem n)

theorem Origin.of_cons (h : Origin st (n :: notes) id v) (hn : n ≠ .inserted id v) :
    Origin st notes id v := by
  rcases h with hst | hmem
  · exact .inl hst
  · rcases List.mem_cons.mp hmem with he | hmem
    · exact absurd he.symm hn
    · exact .inr hmem

theorem getInstance?_insert (s : Shared κ) (i : Instance) (id : String) :
    (s.insert i).store.getInstance? id = if id = i.id then some i else s.store.getInstance? id := by
  by_cases h : id = i.id
  · rw [if_pos h, h]
    exact Store.getInstance?_insertInstance_self s.store i
  · rw [if_neg h]
    exact Store.getInstance?_insertInstance_of_ne s.store i h

theorem keyed_insert (hk : s.store.Keyed) (i : Instance) : (s.insert i).store.Keyed := by
  intro id j hj
  rw [getInstance?_insert] at hj
  split at hj
  · next he =>
    cases hj
    exact he.symm
  · exact hk id j hj

variable [DecidableEq κ]

/-- a copy is read, or written by its client -/
def Note.syncs (c : κ) (id : String) (n : Note κ) : Bool := n = .read c id ∨ n = .written c id

/-- what was done since a client has read its copy, or written it -/
def since (c : κ) (id : String) (notes : List (Note κ)) : List (Note κ) :=
  notes.takeWhile fun n => !n.syncs c id

theorem since_of_syncs (h : n.syncs c id = true) : since c id (n :: notes) = [] := by
  unfold since
  rw [List.takeWhile_cons, h]
  rfl

theorem since_of_not_syncs (h : n.syncs c id = false) :
    since c id (n :: notes) = n :: since c id notes := by
  unfold since
  rw [List.takeWhile_cons, h]
  rfl

/-- a note that neither syncs nor writes -/
theorem writesOf_since (hs : n.syncs c id = false) (hw : n.writes id = false) :
    writesOf id (since c id (n :: notes)) = writesOf id (since c id notes) := by
  rw [since_of_not_syncs hs, writesOf_of_not_writes hw]

def Shared.hold (s : Shared κ) (c : κ) (id : String) (copy : Option Instance) : Shared κ :=
  { s with copies := fun d other => if d = c ∧ other = id then copy else s.copies d other }

def Shared.access (s : Shared κ) : Access κ → Shared κ
  | .insert i => (s.insert i).note (.inserted i.id i.version)
  | .read c id => (s.hold c id (s.store.getInstance? id)).note (.read c id)
  | .change c id content =>
    s.hold c id ((s.copies c id).map fun copy =>
      { content with id := copy.id, version := copy.version })
  | .write c id =>
    match s.copies c id with
    | none => s
    | some copy =>
      match s.store.updateInstance copy with
      | .ok (store, next) => ({ s with store := store }.hold c id (some next)).note (.written c id)
      | .error _ => s

/-- A copy is as many versions behind as its instance was written since. -/
def Behind (s : Shared κ) : Prop :=
  ∀ c id copy, s.copies c id = some copy → copy.id = id ∧
    ∃ i, s.store.getInstance? id = some i ∧
      i.version = copy.version + writesOf id (since c id s.notes)

/-- Versions are what the notes say. -/
structure Fitting (st : Store) (s : Shared κ) : Prop where
  keyed : s.store.Keyed
  behind : Behind s
  stored : ∀ id i, s.store.getInstance? id = some i → ∃ v, Origin st s.notes id v
  versions : ∀ id v, Origin st s.notes id v →
    ∃ i, s.store.getInstance? id = some i ∧ i.version = v + writesOf id s.notes
  unwritten : ∀ id, s.store.getInstance? id = none → writesOf id s.notes = 0

theorem Fitting.insert (h : Fitting st s) (hnew : s.store.getInstance? i.id = none) :
    Fitting st ((s.insert i).note (.inserted i.id i.version)) := by
  have hcount : ∀ id, writesOf id (.inserted i.id i.version :: s.notes) = writesOf id s.notes :=
    fun id => writesOf_of_not_writes rfl
  have hkeep : ∀ {id j}, s.store.getInstance? id = some j →
      (s.insert i).store.getInstance? id = some j := by
    intro id j hj
    rw [getInstance?_insert, if_neg]
    · exact hj
    · rintro rfl
      cases hnew.symm.trans hj
  refine ⟨keyed_insert h.keyed i, fun c id copy hc => ?_, fun id j hj => ?_, fun id v hv => ?_,
    fun id hnone => ?_⟩
  · obtain ⟨hid, j, hj, hversion⟩ := h.behind c id copy hc
    exact ⟨hid, j, hkeep hj, hversion.trans (congrArg _ (writesOf_since rfl rfl).symm)⟩
  · have hj' := (getInstance?_insert s i id).symm.trans hj
    split at hj'
    · next he => exact ⟨i.version, .inr (he ▸ List.mem_cons_self)⟩
    · obtain ⟨v, hv⟩ := h.stored id j hj'
      exact ⟨v, hv.cons⟩
  · show ∃ j, (s.insert i).store.getInstance? id = some j ∧
      j.version = v + writesOf id (.inserted i.id i.version :: s.notes)
    rw [hcount]
    by_cases he : Note.inserted i.id i.version = (.inserted id v : Note κ)
    · -- an id that is new was never written
      cases he
      refine ⟨i, (getInstance?_insert s i i.id).trans (if_pos rfl), ?_⟩
      rw [h.unwritten _ hnew]
      rfl
    · obtain ⟨j, hj, hversion⟩ := h.versions id v (hv.of_cons he)
      exact ⟨j, hkeep hj, hversion⟩
  · have hnone' := (getInstance?_insert s i id).symm.trans hnone
    split at hnone'
    · cases hnone'
    · exact (hcount id).trans (h.unwritten id hnone')

theorem Behind.read (h : Behind s) (hk : s.store.Keyed) (c : κ) (id : String) :
    Behind (s.access (.read c id)) := by
  intro d other copy hc
  show copy.id = other ∧ ∃ i, s.store.getInstance? other = some i ∧ i.version =
    copy.version + writesOf other (since d other (.read c id :: s.notes))
  by_cases he : d = c ∧ other = id
  · have hread : s.store.getInstance? id = some copy := (if_pos he).symm.trans hc
    obtain ⟨rfl, rfl⟩ := he
    refine ⟨hk _ _ hread, copy, hread, ?_⟩
    rw [since_of_syncs (by simp [Note.syncs])]
    rfl
  · have hheld : s.copies d other = some copy := (if_neg he).symm.trans hc
    obtain ⟨hid, i, hi, hversion⟩ := h d other copy hheld
    refine ⟨hid, i, hi, ?_⟩
    rw [writesOf_since _ rfl]
    · exact hversion
    · have hne : ¬ (c = d ∧ id = other) := fun he' => he ⟨he'.1.symm, he'.2.symm⟩
      simpa [Note.syncs] using hne

theorem Fitting.read (h : Fitting st s) (c : κ) (id : String) :
    Fitting st (s.access (.read c id)) := by
  have hcount : ∀ other, writesOf other (.read c id :: s.notes) = writesOf other s.notes :=
    fun other => writesOf_of_not_writes rfl
  refine ⟨h.keyed, h.behind.read h.keyed c id, fun other i hi => ?_, fun other v hv => ?_,
    fun other hnone => (hcount other).trans (h.unwritten other hnone)⟩
  · obtain ⟨v, hv⟩ := h.stored other i hi
    exact ⟨v, hv.cons⟩
  · obtain ⟨i, hi, hversion⟩ := h.versions other v (hv.of_cons nofun)
    exact ⟨i, hi, hversion.trans (congrArg _ (hcount other).symm)⟩

theorem Fitting.change (h : Fitting st s) (c : κ) (id : String) (content : Instance) :
    Fitting st (s.access (.change c id content)) := by
  refine ⟨h.keyed, fun d other copy hc => ?_, h.stored, h.versions, h.unwritten⟩
  by_cases he : d = c ∧ other = id
  · have hheld := (if_pos he).symm.trans hc
    obtain ⟨old, hold, rfl⟩ := Option.map_eq_some_iff.mp hheld
    obtain ⟨rfl, rfl⟩ := he
    exact h.behind d other old hold
  · exact h.behind d other copy ((if_neg he).symm.trans hc)

/-! ## writes -/

/-- the copy after a write that was accepted -/
def renewed (copy : Instance) : Instance := { copy with version := copy.version + 1 }

/-- the state after a write that was accepted -/
def Shared.written (s : Shared κ) (c : κ) (copy : Instance) : Shared κ :=
  ((s.insert (renewed copy)).hold c copy.id (some (renewed copy))).note (.written c copy.id)

theorem updateInstance_ok {s : Store} {x : Store × Instance} (hu : s.updateInstance copy = .ok x) :
    x = (s.insertInstance (renewed copy), renewed copy) ∧
      ∃ i, s.getInstance? copy.id = some i ∧ i.version = copy.version := by
  unfold Store.updateInstance at hu
  cases hi : s.getInstance? copy.id with
  | none =>
    rw [hi] at hu
    cases hu
  | some i =>
    rw [hi] at hu
    by_cases hv : i.version = copy.version
    · simp only [if_pos hv] at hu
      cases hu
      exact ⟨rfl, i, rfl, hv⟩
    · simp only [if_neg hv] at hu
      cases hu

theorem access_write_ok {x : Store × Instance} (hc : s.copies c copy.id = some copy)
    (hu : s.store.updateInstance copy = .ok x) :
    s.access (.write c copy.id) = s.written c copy := by
  obtain ⟨rfl, _⟩ := updateInstance_ok hu
  simp only [Shared.access, hc, hu]
  rfl

theorem access_write_error {e : StorageError} (hc : s.copies c id = some copy)
    (hu : s.store.updateInstance copy = .error e) : s.access (.write c id) = s := by
  simp only [Shared.access, hc, hu]

theorem Behind.written (h : Behind s) (hi : s.store.getInstance? copy.id = some i)
    (hv : i.version = copy.version) : Behind (s.written c copy) := by
  intro d other held hc
  have hread := getInstance?_insert s (renewed copy)
  show held.id = other ∧ ∃ j, (s.insert (renewed copy)).store.getInstance? other = some j ∧
    j.version = held.version + writesOf other (since d other (.written c copy.id :: s.notes))
  by_cases he : d = c ∧ other = copy.id
  · -- the client's own copy was renewed with the store
    cases (if_pos he).symm.trans hc
    obtain ⟨rfl, rfl⟩ := he
    refine ⟨rfl, _, (hread _).trans (if_pos rfl), ?_⟩
    rw [since_of_syncs (by simp [Note.syncs])]
    rfl
  · have hheld : s.copies d other = some held := (if_neg he).symm.trans hc
    obtain ⟨hid, j, hj, hversion⟩ := h d other held hheld
    have hsync : Note.syncs d other (.written c copy.id) = false := by
      have hne : ¬ (c = d ∧ copy.id = other) := fun he' => he ⟨he'.1.symm, he'.2.symm⟩
      simpa [Note.syncs] using hne
    by_cases hid' : other = copy.id
    · -- the copy of another client is one more write behind
      subst hid'
      cases Option.some.inj (hi.symm.trans hj)
      refine ⟨hid, _, (hread _).trans (if_pos rfl), ?_⟩
      rw [since_of_not_syncs hsync, writesOf_of_writes (writes_own c copy.id)]
      show copy.version + 1 = _
      omega
    · refine ⟨hid, j, (hread other).trans ((if_neg hid').trans hj), ?_⟩
      rw [writesOf_since hsync (not_writes_of_ne c hid')]
      exact hversion

theorem Fitting.written (h : Fitting st s) (hi : s.store.getInstance? copy.id = some i)
    (hv : i.version = copy.version) : Fitting st (s.written c copy) := by
  have hread := getInstance?_insert s (renewed copy)
  refine ⟨keyed_insert h.keyed _, h.behind.written hi hv, fun other j hj => ?_,
    fun other v hv' => ?_, fun other hnone => ?_⟩
  · have hstored : ∃ k, s.store.getInstance? other = some k := by
      have hj' := (hread other).symm.trans hj
      split at hj'
      · next he => exact ⟨i, he ▸ hi⟩
      · exact ⟨j, hj'⟩
    obtain ⟨k, hk⟩ := hstored
    obtain ⟨v, hv'⟩ := h.stored other k hk
    exact ⟨v, hv'.cons⟩
  · obtain ⟨j, hj, hversion⟩ := h.versions other v (hv'.of_cons nofun)
    show ∃ k, (s.insert (renewed copy)).store.getInstance? other = some k ∧
      k.version = v + writesOf other (.written c copy.id :: s.notes)
    by_cases he : other = copy.id
    · -- one more write, and one more version
      subst he
      cases Option.some.inj (hi.symm.trans hj)
      refine ⟨_, (hread _).trans (if_pos rfl), ?_⟩
      rw [writesOf_of_writes (writes_own c copy.id)]
      show copy.version + 1 = _
      omega
    · refine ⟨j, (hread other).trans ((if_neg he).trans hj), ?_⟩
      rw [writesOf_of_not_writes (not_writes_of_ne c he)]
      exact hversion
  · have hnone' := (hread other).symm.trans hnone
    split at hnone'
    · cases hnone'
    · next he =>
      have hsame : writesOf other (.written c copy.id :: s.notes) = writesOf other s.notes :=
        writesOf_of_not_writes (not_writes_of_ne c he)
      exact hsame.trans (h.unwritten other hnone')

theorem Fitting.write (h : Fitting st s) (c : κ) (id : String) :
    Fitting st (s.access (.write c id)) := by
  cases hc : s.copies c id with
  | none =>
    have hsame : s.access (.write c id) = s := by simp only [Shared.access, hc]
    rw [hsame]
    exact h
  | some copy =>
    cases hu : s.store.updateInstance copy with
    | error e =>
      rw [access_write_error hc hu]
      exact h
    | ok x =>
      have hid := (h.behind c id copy hc).1
      subst hid
      obtain ⟨_, i, hi, hv⟩ := updateInstance_ok hu
      rw [access_write_ok hc hu]
      exact h.written hi hv

/-- **An access keeps versions fitting.** -/
theorem Fitting.access (h : Fitting st s) (a : Access κ)
    (hnew : ∀ i, a = .insert i → s.store.getInstance? i.id = none) : Fitting st (s.access a) := by
  cases a with
  | insert i => exact h.insert (hnew i rfl)
  | read c id => exact h.read c id
  | change c id content => exact h.change c id content
  | write c id => exact h.write c id

end Workflows.Clients
