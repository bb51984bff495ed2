import Workflows.Lock.Registry

/-!
# Exclusion

A client is one use of a lock, from its request until it has tidied up.  A task that holds the locks
of several instances is as many clients, so nothing is lost by one lock for each client.

* `LockPhase.use?`        the lock that a client uses
* `LockPhase.instance?`   the instance that a client is busy with
* `Paired`                locks and instances belong together, and a lock is held once
* `Attended`              every entry has a client that is busy with its instance

Main statements: steps keep a registry intact (`Step.intact`), and so the locks of an instance
exclude each other and leave nothing behind (`exclusive`).
-/

namespace Workflows

namespace LockPhase

/-- the instance and the lock that a client uses -/
def use? : LockPhase → Option (String × Nat)
  | .waiting id lock | .holding id lock => some (id, lock)
  | _ => none

/-- the instance that a client is busy with -/
def instance? : LockPhase → Option String
  | .idle => none
  | .waiting id _ | .holding id _ | .leaving id => some id

theorem uses_of_use? {p : LockPhase} {id : String} {lock : Nat} (h : p.use? = some (id, lock)) :
    p.uses lock = true := by
  cases p with
  | waiting | holding =>
    cases h
    exact decide_eq_true rfl
  | idle | leaving => cases h

theorem use?_of_uses {p : LockPhase} {lock : Nat} (h : p.uses lock = true) :
    ∃ id, p.use? = some (id, lock) := by
  cases p with
  | waiting id l | holding id l =>
    obtain rfl : l = lock := of_decide_eq_true h
    exact ⟨id, rfl⟩
  | idle | leaving => cases h

theorem instance?_of_use? {p : LockPhase} {id : String} {lock : Nat}
    (h : p.use? = some (id, lock)) : p.instance? = some id := by
  cases p with
  | waiting | holding =>
    cases h
    rfl
  | idle | leaving => cases h

end LockPhase

namespace LockRegistry
variable {r s : LockRegistry} {c other lock : Nat} {id : String} {p : LockPhase}

/-! ## reading after writing -/

theorem phase?_setPhase_of_ne (h : other ≠ c) : (r.setPhase c p).phase? other = r.phase? other :=
  List.getElem?_set_ne fun he => h he.symm

theorem phase?_setPhase_self {q : LockPhase} (h : r.phase? c = some q) :
    (r.setPhase c p).phase? c = some p :=
  List.getElem?_set_self (List.getElem?_eq_some_iff.mp h).1

/-- a client after the phase of one was set -/
theorem phase?_setPhase {q : LockPhase} (h : (r.setPhase c p).phase? other = some q) :
    (other = c ∧ q = p) ∨ (other ≠ c ∧ r.phase? other = some q) := by
  by_cases he : other = c
  · subst he
    have hlength := (List.getElem?_eq_some_iff.mp h).1
    rw [setPhase, List.length_set] at hlength
    exact .inl ⟨rfl, Option.some.inj (h.symm.trans (List.getElem?_set_self hlength))⟩
  · rw [phase?_setPhase_of_ne he] at h
    exact .inr ⟨he, h⟩

/-- nobody uses a lock that is not counted -/
theorem use?_ne_of_users (h : r.users lock = 0) (hp : r.phase? c = some p) :
    p.use? ≠ some (id, lock) := by
  intro hu
  have hmem : p ∈ r.clients := List.mem_of_getElem? hp
  exact List.countP_eq_zero.mp h p hmem (LockPhase.uses_of_use? hu)

theorem exists_use_of_users (h : r.users lock ≠ 0) :
    ∃ c p id, r.phase? c = some p ∧ p.use? = some (id, lock) := by
  obtain ⟨p, hmem, hp⟩ := List.countP_pos_iff.mp (Nat.pos_of_ne_zero h)
  obtain ⟨c, hc⟩ := List.getElem?_of_mem hmem
  obtain ⟨id, hid⟩ := LockPhase.use?_of_uses hp
  exact ⟨c, p, id, hc, hid⟩

/-! ## what every step keeps -/

/-- Locks and instances belong together, and a lock is held by one client at most. -/
structure Paired (r : LockRegistry) : Prop where
  /-- who uses a lock uses that of its instance -/
  entry : ∀ c p id lock, r.phase? c = some p → p.use? = some (id, lock) →
    Dict.get? r.entries id = some lock
  made : ∀ id lock, Dict.get? r.entries id = some lock → lock < r.made
  distinct : ∀ id other lock, Dict.get? r.entries id = some lock →
    Dict.get? r.entries other = some lock → id = other
  taken : ∀ c id lock, r.phase? c = some (.holding id lock) → lock ∈ r.taken
  alone : ∀ c other id lock, r.phase? c = some (.holding id lock) →
    r.phase? other = some (.holding id lock) → c = other

/-- Every entry has a client that is busy with its instance, and will tidy up. -/
def Attended (r : LockRegistry) : Prop :=
  ∀ e ∈ r.entries, ∃ c p, r.phase? c = some p ∧ p.instance? = some e.1

/-- a client does something else, that is not to hold a lock -/
theorem Paired.setPhase {q : LockPhase} (h : r.Paired)
    (hu : ∀ id lock, q.use? = some (id, lock) → Dict.get? r.entries id = some lock)
    (hq : ∀ id lock, q ≠ .holding id lock) : (r.setPhase c q).Paired := by
  refine ⟨fun d p id lock hp hlock => ?_, h.made, h.distinct, fun d id lock hd => ?_,
    fun d e id lock hd he => ?_⟩
  · rcases phase?_setPhase hp with ⟨_, rfl⟩ | ⟨_, hp⟩
    · exact hu id lock hlock
    · exact h.entry d p id lock hp hlock
  · rcases phase?_setPhase hd with ⟨_, he⟩ | ⟨_, hd⟩
    · exact absurd he.symm (hq id lock)
    · exact h.taken d id lock hd
  · rcases phase?_setPhase hd with ⟨_, heq⟩ | ⟨_, hd⟩
    · exact absurd heq.symm (hq id lock)
    · rcases phase?_setPhase he with ⟨_, heq⟩ | ⟨_, he⟩
      · exact absurd heq.symm (hq id lock)
      · exact h.alone d e id lock hd he

theorem Attended.setPhase {q : LockPhase} (h : r.Attended) (hp : r.phase? c = some p)
    (hq : ∀ e ∈ r.entries, p.instance? = some e.1 → q.instance? = some e.1) :
    (r.setPhase c q).Attended := by
  intro e he
  obtain ⟨d, p', hd, hid⟩ := h e he
  by_cases hdc : d = c
  · subst hdc
    obtain rfl := Option.some.inj (hp.symm.trans hd)
    exact ⟨d, q, phase?_setPhase_self hp, hq e he hid⟩
  · exact ⟨d, p', (phase?_setPhase_of_ne hdc).trans hd, hid⟩

/-! ### requests -/

/-- the registry with a new lock for an instance -/
def withLock (r : LockRegistry) (id : String) : LockRegistry :=
  { r with entries := Dict.insert r.entries id r.made, made := r.made + 1 }

theorem get?_withLock (r : LockRegistry) (id other : String) :
    Dict.get? (r.withLock id).entries other =
      if other = id then some r.made else Dict.get? r.entries other := by
  split
  · next he =>
    rw [he]
    exact Dict.get?_insert_self r.entries id r.made
  · next hne => exact Dict.get?_insert_of_ne r.entries r.made hne

theorem Paired.withLock (h : r.Paired) (hnone : Dict.get? r.entries id = none) :
    (r.withLock id).Paired := by
  have hold : ∀ {other lock}, Dict.get? (r.withLock id).entries other = some lock →
      (other = id ∧ lock = r.made) ∨
        (Dict.get? r.entries other = some lock ∧ lock < r.made) := by
    intro other lock hget
    rw [get?_withLock] at hget
    split at hget
    · next he => exact .inl ⟨he, (Option.some.inj hget).symm⟩
    · exact .inr ⟨hget, h.made other lock hget⟩
  refine ⟨fun c p other lock hp hlock => ?_, fun other lock hget => ?_,
    fun a b lock ha hb => ?_, h.taken, h.alone⟩
  · have hget := h.entry c p other lock hp hlock
    have hne : other ≠ id := by
      rintro rfl
      cases hnone.symm.trans hget
    rw [get?_withLock, if_neg hne]
    exact hget
  · rcases hold hget with ⟨_, rfl⟩ | ⟨_, hlt⟩
    · exact Nat.lt_succ_self r.made
    · exact Nat.lt_succ_of_lt hlt
  · rcases hold ha with ⟨rfl, rfl⟩ | ⟨ha, hlt⟩
    · rcases hold hb with ⟨rfl, _⟩ | ⟨_, hlt⟩
      · rfl
      · exact absurd hlt (Nat.lt_irrefl _)
    · rcases hold hb with ⟨rfl, rfl⟩ | ⟨hb, _⟩
      · exact absurd hlt (Nat.lt_irrefl _)
      · exact h.distinct a b lock ha hb

/-- an idle client waits for the lock of an instance -/
theorem wait_intact (h : r.Paired) (ha : ∀ e ∈ r.entries, e.1 ≠ id →
      ∃ d p, r.phase? d = some p ∧ p.instance? = some e.1)
    (hc : r.phase? c = some .idle) (hget : Dict.get? r.entries id = some lock) :
    (r.setPhase c (.waiting id lock)).Paired ∧ (r.setPhase c (.waiting id lock)).Attended := by
  refine ⟨h.setPhase (fun other l hu => ?_) fun _ _ => nofun, fun e he => ?_⟩
  · cases hu
    exact hget
  · by_cases hid : e.1 = id
    · exact ⟨c, _, phase?_setPhase_self hc, congrArg some hid.symm⟩
    · obtain ⟨d, p, hd, hp⟩ := ha e he hid
      refine ⟨d, p, (phase?_setPhase_of_ne ?_).trans hd, hp⟩
      rintro rfl
      cases hc.symm.trans hd
      cases hp

theorem request?_intact (h : r.Paired) (ha : r.Attended) (hs : r.request? c id = some s) :
    s.Paired ∧ s.Attended := by
  unfold request? at hs
  split at hs
  · next hc =>
    cases hget : Dict.get? r.entries id with
    | some lock =>
      have hlock : r.lockOf id = (lock, r) := by rw [lockOf, hget]
      rw [hlock] at hs
      cases hs
      exact wait_intact h (fun e he _ => ha e he) hc hget
    | none =>
      have hlock : r.lockOf id = (r.made, r.withLock id) := by
        rw [lockOf, hget]
        rfl
      rw [hlock] at hs
      cases hs
      refine wait_intact (h.withLock hget) (fun e he hne => ?_) hc
        (Dict.get?_insert_self r.entries id r.made)
      rcases Dict.mem_of_mem_insert he with rfl | he
      · exact absurd rfl hne
      · exact ha e he
  · cases hs

/-! ### locks that are taken and freed -/

theorem obtain?_intact (h : r.Paired) (ha : r.Attended) (hs : r.obtain? c = some s) :
    s.Paired ∧ s.Attended := by
  unfold obtain? at hs
  split at hs
  · next id lock hc =>
    split at hs
    · cases hs
    · next hfree =>
      cases hs
      have hnot : lock ∉ r.taken := fun hmem => hfree (List.contains_iff_mem.mpr hmem)
      refine ⟨⟨fun d p other l hd hu => ?_, h.made, h.distinct, fun d other l hd => ?_,
        fun d e other l hd he => ?_⟩, ha.setPhase hc fun _ _ hi => hi⟩
      · rcases phase?_setPhase hd with ⟨_, rfl⟩ | ⟨_, hd⟩
        · exact h.entry c (.waiting id lock) other l hc hu
        · exact h.entry d p other l hd hu
      · rcases phase?_setPhase hd with ⟨_, he⟩ | ⟨_, hd⟩
        · cases he
          exact List.mem_cons_self
        · exact List.mem_cons_of_mem lock (h.taken d other l hd)
      · -- nobody has held the lock, since it was free
        rcases phase?_setPhase hd with ⟨hdc, hl⟩ | ⟨_, hd'⟩
        · rcases phase?_setPhase he with ⟨hec, _⟩ | ⟨_, he'⟩
          · exact hdc.trans hec.symm
          · cases hl
            exact absurd (h.taken e id lock he') hnot
        · rcases phase?_setPhase he with ⟨_, hl⟩ | ⟨_, he'⟩
          · cases hl
            exact absurd (h.taken d id lock hd') hnot
          · exact h.alone d e other l hd' he'
  · cases hs

theorem release?_intact (h : r.Paired) (ha : r.Attended) (hs : r.release? c = some s) :
    s.Paired ∧ s.Attended := by
  unfold release? at hs
  split at hs
  · next id lock hc =>
    cases hs
    have hleft : (r.setPhase c (.leaving id)).Paired := h.setPhase nofun fun _ _ => nofun
    refine ⟨⟨hleft.entry, hleft.made, hleft.distinct, fun d other l hd => ?_, hleft.alone⟩,
      ha.setPhase hc fun _ _ hi => hi⟩
    rcases phase?_setPhase hd with ⟨_, he⟩ | ⟨hne, hd'⟩
    · cases he
    · -- any other client holds another lock
      refine (List.mem_erase_of_ne ?_).mpr (h.taken d other l hd')
      rintro rfl
      obtain rfl := h.distinct other id l (h.entry d _ other l hd' rfl) (h.entry c _ id l hc rfl)
      exact hne (h.alone d c other l hd' hc)
  · cases hs

/-! ### tidying up -/

theorem Paired.forget (h : r.Paired) (id : String) : (r.forget id).Paired := by
  unfold LockRegistry.forget
  split
  · next lock hget =>
    split
    · next hunused =>
      have hkept : ∀ {other l}, Dict.get? (Dict.erase r.entries id) other = some l →
          Dict.get? r.entries other = some l := by
        intro other l hl
        by_cases he : other = id
        · rw [he, Dict.get?_erase_self] at hl
          cases hl
        · rwa [Dict.get?_erase_of_ne r.entries he] at hl
      refine ⟨fun c p other l hp hu => ?_, fun other l hl => h.made other l (hkept hl),
        fun a b l ha hb => h.distinct a b l (hkept ha) (hkept hb), h.taken, h.alone⟩
      have hl := h.entry c p other l hp hu
      have hne : other ≠ id := by
        rintro rfl
        obtain rfl := Option.some.inj (hget.symm.trans hl)
        exact use?_ne_of_users hunused hp hu
      exact (Dict.get?_erase_of_ne r.entries hne).trans hl
    · exact h
  · exact h

/-- Who has tidied up leaves an entry behind only if another client uses its lock. -/
theorem attended_forget (h : r.Paired) (ha : r.Attended) (hc : r.phase? c = some (.leaving id)) :
    ((r.forget id).setPhase c .idle).Attended := by
  have hother : ∀ e ∈ r.entries, e.1 ≠ id →
      ∃ d p, (r.setPhase c .idle).phase? d = some p ∧ p.instance? = some e.1 := by
    intro e he hne
    obtain ⟨d, p, hd, hp⟩ := ha e he
    refine ⟨d, p, (phase?_setPhase_of_ne ?_).trans hd, hp⟩
    rintro rfl
    cases hc.symm.trans hd
    exact hne (Option.some.inj hp).symm
  unfold forget
  split
  · next lock hget =>
    split
    · intro e he
      obtain ⟨he, hne⟩ := Dict.mem_erase.mp he
      exact hother e he hne
    · next hused =>
      intro e he
      by_cases hid : e.1 = id
      · obtain ⟨d, p, other, hd, hu⟩ := exists_use_of_users hused
        obtain rfl := h.distinct id other lock hget (h.entry d p other lock hd hu)
        refine ⟨d, p, (phase?_setPhase_of_ne ?_).trans hd, ?_⟩
        · rintro rfl
          cases hc.symm.trans hd
          cases hu
        · rw [hid]
          exact LockPhase.instance?_of_use? hu
      · exact hother e he hid
  · next hnone =>
    exact fun e he => hother e he (Dict.ne_of_get?_eq_none hnone he)

theorem tidy?_intact (h : r.Paired) (ha : r.Attended) (hs : r.tidy? c = some s) :
    s.Paired ∧ s.Attended := by
  unfold tidy? at hs
  split at hs
  · next id hc =>
    cases hs
    exact ⟨(h.forget id).setPhase nofun fun _ _ => nofun, attended_forget h ha hc⟩
  · cases hs

/-! ## runs -/

theorem Step.intact (t : Step r s) (h : r.Paired ∧ r.Attended) : s.Paired ∧ s.Attended := by
  cases t with
  | request client id hs => exact request?_intact h.1 h.2 hs
  | obtain client hs => exact obtain?_intact h.1 h.2 hs
  | release client hs => exact release?_intact h.1 h.2 hs
  | tidy client hs => exact tidy?_intact h.1 h.2 hs

theorem start_phase? {n : Nat} (h : (start n).phase? c = some p) : p = .idle := by
  have hmem : p ∈ List.replicate n LockPhase.idle := List.mem_of_getElem? h
  exact (List.mem_replicate.mp hmem).2

theorem start_intact (n : Nat) : (start n).Paired ∧ (start n).Attended := by
  refine ⟨⟨fun c p id lock hp hu => ?_, nofun, nofun, fun c id lock hc => ?_,
    fun c d id lock hc => ?_⟩, nofun⟩
  · rw [start_phase? hp] at hu
    cases hu
  · cases start_phase? hc
  · cases start_phase? hc

theorem Reached.intact {n : Nat} (h : Reached n r) : r.Paired ∧ r.Attended := by
  induction h with
  | start => exact start_intact n
  | step _ t ih => exact t.intact ih

/-- **Locks exclude each other and leave nothing behind.**  However the steps of any number of
clients are mixed, an instance is held by one of them at most, all that hold it or wait for it use
one lock, and there are no entries once all of them are idle. -/
theorem exclusive {n : Nat} (h : Reached n r) :
    (∀ c d id lock other, r.phase? c = some (.holding id lock) →
      r.phase? d = some (.holding id other) → c = d) ∧
    (∀ c d p q id lock other, r.phase? c = some p → p.use? = some (id, lock) →
      r.phase? d = some q → q.use? = some (id, other) → lock = other) ∧
    ((∀ c p, r.phase? c = some p → p = .idle) → r.entries = []) := by
  obtain ⟨hp, ha⟩ := h.intact
  have hsame : ∀ c d p q id lock other, r.phase? c = some p → p.use? = some (id, lock) →
      r.phase? d = some q → q.use? = some (id, other) → lock = other := by
    intro c d p q id lock other hc hl hd ho
    exact Option.some.inj
      ((hp.entry c p id lock hc hl).symm.trans (hp.entry d q id other hd ho))
  refine ⟨fun c d id lock other hc hd => ?_, hsame, fun hidle => ?_⟩
  · obtain rfl := hsame c d _ _ id lock other hc rfl hd rfl
    exact hp.alone c d id lock hc hd
  · refine List.eq_nil_iff_forall_not_mem.mpr fun e he => ?_
    obtain ⟨c, p, hc, hi⟩ := ha e he
    rw [hidle c p hc] at hi
    cases hi

/-! ### two clients of one instance -/

/-- one client holds an instance that another one waits for -/
def contended : LockRegistry := ⟨[("a", 0)], 1, [0], [.holding "a" 0, .waiting "a" 0]⟩

theorem reached_contended : Reached 2 contended :=
  ((Reached.start.step (.request 0 "a" rfl)).step (.obtain 0 rfl)).step (.request 1 "a" rfl)

/-- The entry outlives the first client, and is gone after the second one. -/
theorem reached_left : Reached 2 ⟨[], 1, [], [.idle, .idle]⟩ :=
  ((((reached_contended.step (.release 0 rfl)).step (.tidy 0 rfl)).step (.obtain 1 rfl)).step
    (.release 1 rfl)).step (.tidy 1 rfl)

theorem exclusive_contended :
    (Reached 2 contended ∧ ∀ c lock, contended.phase? c = some (.holding "a" lock) → c = 0) ∧
    (∀ c p lock, contended.phase? c = some p → p.use? = some ("a", lock) → lock = 0) ∧
    Reached 2 ⟨[], 1, [], [.idle, .idle]⟩ ∧
    (⟨[], 1, [], [.idle, .idle]⟩ : LockRegistry).entries = [] := by
  refine ⟨⟨reached_contended, fun c lock h => ?_⟩, fun c p lock hp hu => ?_, reached_left, ?_⟩
  · exact (exclusive reached_contended).1 c 0 "a" lock 0 h rfl
  · exact (exclusive reached_contended).2.1 c 0 p _ "a" lock 0 hp hu rfl rfl
  · refine (exclusive reached_left).2.2 fun c p hc => ?_
    have hmem : p ∈ [LockPhase.idle, LockPhase.idle] := List.mem_of_getElem? hc
    simpa using hmem

end LockRegistry
end Workflows
