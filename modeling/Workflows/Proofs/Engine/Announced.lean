import Workflows.Proofs.Engine.Parking

/-!
# States that are announced

* `eventsOf`   what was told of one instance
* `replay`     the state of an instance after what was told of it
* `endings`    how often it was told that an instance has ended
* `Told`       two worlds, with what was told between them

Main statement: operations announce the states that they write (`Performed.announces`), so the
stored states are those of the replay, and the end of an instance is announced once (`after_told`).
-/

namespace Workflows

/-! ## events of one instance -/

def eventsOf (id : String) (es : List Event) : List Happening :=
  (es.filter fun e => e.instanceId = id).map (·.happening)

/-- the state that is announced -/
def Happening.state? : Happening → Option InstanceStatus
  | .statusChanged status _ => some status
  | _ => none

def replay (status : InstanceStatus) (hs : List Happening) : InstanceStatus :=
  hs.foldl (fun status h => h.state?.getD status) status

def endings (hs : List Happening) : Nat := hs.countP fun h => h.state?.any (·.isTerminal)

section
variable {id : String} {es : List Event} {e : Event} {h : Happening} {time : Instant}

theorem eventsOf_append (id : String) (es fs : List Event) :
    eventsOf id (es ++ fs) = eventsOf id es ++ eventsOf id fs := by
  unfold eventsOf
  rw [List.filter_append, List.map_append]

theorem eventsOf_self : eventsOf id [⟨id, h, time⟩] = [h] := by
  unfold eventsOf
  rw [List.filter_cons_of_pos (by simp)]
  rfl

theorem eventsOf_of_ne {other : String} (hne : id ≠ other) :
    eventsOf id [⟨other, h, time⟩] = [] := by
  unfold eventsOf
  rw [List.filter_cons_of_neg (by simpa using hne.symm)]
  rfl

theorem mem_eventsOf {h : Happening} : h ∈ eventsOf id es ↔
    ∃ e ∈ es, e.instanceId = id ∧ e.happening = h := by
  unfold eventsOf
  rw [List.mem_map]
  constructor
  · rintro ⟨e, he, rfl⟩
    obtain ⟨hmem, hid⟩ := List.mem_filter.mp he
    exact ⟨e, hmem, of_decide_eq_true hid, rfl⟩
  · rintro ⟨e, hmem, hid, rfl⟩
    exact ⟨e, List.mem_filter.mpr ⟨hmem, decide_eq_true hid⟩, rfl⟩

theorem replay_append (status : InstanceStatus) (hs gs : List Happening) :
    replay status (hs ++ gs) = replay (replay status hs) gs := List.foldl_append

theorem endings_append (hs gs : List Happening) : endings (hs ++ gs) = endings hs + endings gs :=
  List.countP_append

/-- no state is announced, so none is replayed -/
theorem replay_of_stateless {hs : List Happening} (hn : ∀ h ∈ hs, h.state? = none)
    (status : InstanceStatus) : replay status hs = status ∧ endings hs = 0 := by
  induction hs with
  | nil => exact ⟨rfl, rfl⟩
  | cons h hs ih =>
    have hnone := hn h List.mem_cons_self
    obtain ⟨hreplay, hcount⟩ := ih fun g hg => hn g (List.mem_cons_of_mem h hg)
    constructor
    · show replay (h.state?.getD status) hs = status
      rw [hnone]
      exact hreplay
    · unfold endings
      rw [List.countP_cons_of_neg]
      · exact hcount
      · rw [hnone]
        exact Bool.false_ne_true

theorem Happening.state?_of_isOfNode (hh : h.isOfNode = true) : h.state? = none := by
  cases h with
  | statusChanged => cases hh
  | _ => rfl

end

namespace Engine
variable {names : Nat → String} {maxLevel : Nat} {env : Env} {s s' : Scene} {u v w w' : World}
  {act : Act} {op : Operation} {result : Except EngineError Unit} {fuel : Nat} {id : String}
  {i j child : Instance}

/-- the state of a stored instance, or of one that is still to be started -/
def statusOf (w : World) (id : String) : InstanceStatus :=
  ((w.store.getInstance? id).map (·.status)).getD .running

theorem statusOf_of_stored (hi : w.store.getInstance? id = some i) : statusOf w id = i.status := by
  unfold statusOf
  rw [hi]
  rfl

theorem statusOf_of_none (hi : w.store.getInstance? id = none) : statusOf w id = .running := by
  unfold statusOf
  rw [hi]
  rfl

theorem statusOf_put (w : World) (j : Instance) (id : String) :
    statusOf (w.put j) id = if id = j.id then j.status else statusOf w id := by
  unfold statusOf
  rw [World.getInstance?_put]
  split
  · rfl
  · rfl

/-! ## what is told between two worlds -/

/-- What was told of an instance leads from one state to the other, and says that it has ended if
and only if it has. -/
structure Tale (hs : List Happening) (before after : InstanceStatus) : Prop where
  replay : replay before hs = after
  endings : endings hs + before.isTerminal.toNat = after.isTerminal.toNat

theorem Tale.stateless {hs : List Happening} (hn : ∀ h ∈ hs, h.state? = none)
    (status : InstanceStatus) : Tale hs status status := by
  obtain ⟨hreplay, hcount⟩ := replay_of_stateless hn status
  exact ⟨hreplay, by rw [hcount, Nat.zero_add]⟩

theorem Tale.nil (status : InstanceStatus) : Tale [] status status := ⟨rfl, Nat.zero_add _⟩

theorem Tale.append {hs gs : List Happening} {a b c : InstanceStatus} (h : Tale hs a b)
    (h' : Tale gs b c) : Tale (hs ++ gs) a c := by
  refine ⟨by rw [replay_append, h.replay, h'.replay], ?_⟩
  have hfirst := h.endings
  have hsecond := h'.endings
  rw [endings_append]
  omega

/-- a new state is announced of an instance that has not ended -/
theorem Tale.announce {before after : InstanceStatus} (h : before.isTerminal = false)
    (error : Option String) : Tale [.statusChanged after error] before after := by
  refine ⟨rfl, ?_⟩
  rw [h]
  cases after <;> rfl

def Told (w w' : World) : Prop :=
  ∃ es : List Event, w'.events.toList = w.events.toList ++ es ∧
    ∀ id, Tale (eventsOf id es) (statusOf w id) (statusOf w' id)

namespace Told

theorem trans (h : Told u v) (h' : Told v w) : Told u w := by
  obtain ⟨es, hes, htale⟩ := h
  obtain ⟨fs, hfs, htale'⟩ := h'
  refine ⟨es ++ fs, by rw [hfs, hes, List.append_assoc], fun id => ?_⟩
  rw [eventsOf_append]
  exact (htale id).append (htale' id)

theorem quiet (h : Quiet w w') : Told w w' := by
  obtain ⟨es, hes, hsort⟩ := h.events
  refine ⟨es, hes, fun id => ?_⟩
  have hsame : statusOf w' id = statusOf w id := by
    unfold statusOf
    rw [h.getInstance?]
  rw [hsame]
  refine Tale.stateless (fun g hg => ?_) _
  obtain ⟨e, he, _, rfl⟩ := mem_eventsOf.mp hg
  exact Happening.state?_of_isOfNode (hsort e he)

theorem refl (w : World) : Told w w := quiet (Quiet.refl w)

/-- a record that is written with its old state -/
theorem put (hi : w.store.getInstance? j.id = some i) (hs : j.status = i.status) :
    Told w (w.put j) := by
  refine ⟨[], (List.append_nil _).symm, fun id => ?_⟩
  have hsame : statusOf (w.put j) id = statusOf w id := by
    rw [statusOf_put]
    split
    · next he =>
      rw [he, statusOf_of_stored hi]
      exact hs
    · rfl
  rw [hsame]
  exact Tale.nil _

/-- a record that is written with a state that is announced -/
theorem announce (hi : w.store.getInstance? j.id = some i) (ht : i.status.isTerminal = false)
    (time : Instant) : Told w (w.announce j time) := by
  refine ⟨[⟨j.id, .statusChanged j.status j.error, time⟩], Array.toList_push, fun id => ?_⟩
  show Tale _ (statusOf w id) (statusOf (w.put j) id)
  rw [statusOf_put]
  by_cases he : id = j.id
  · subst he
    rw [if_pos rfl, eventsOf_self, statusOf_of_stored hi]
    exact Tale.announce ht _
  · rw [if_neg he, eventsOf_of_ne he]
    exact Tale.nil _

theorem started {d : Definition} (hi : w.store.getInstance? i.id = none)
    (hr : i.status = .running) : Told w (w.started i d) := by
  refine ⟨[⟨i.id, .instanceStarted d.id i.nestingLevel, i.startedAt⟩], Array.toList_push,
    fun id => ?_⟩
  show Tale _ (statusOf w id) (statusOf (w.put i) id)
  rw [statusOf_put]
  by_cases he : id = i.id
  · subst he
    rw [if_pos rfl, eventsOf_self, statusOf_of_none hi, hr]
    exact Tale.stateless (fun h hh => by rw [List.mem_singleton.mp hh]; rfl) _
  · rw [if_neg he, eventsOf_of_ne he]
    exact Tale.nil _

end Told

/-- the record of an instance that has not ended is written, and its state announced -/
theorem told_announce (hi : w.store.getInstance? i.id = some i) (ho : i.SameOrigin j)
    (ht : i.status.isTerminal = false) (now : Instant) :
    Told w (w.announce (j.written now) now) := by
  refine Told.announce (i := i) ?_ ht now
  show w.store.getInstance? j.id = some i
  rw [ho.id]
  exact hi

theorem told_put (hi : w.store.getInstance? i.id = some i) (ho : i.SameOrigin j)
    (hs : j.status = i.status) (now : Instant) : Told w (w.put (j.written now)) := by
  refine Told.put (i := i) ?_ hs
  show w.store.getInstance? j.id = some i
  rw [ho.id]
  exact hi

/-! ## moves -/

theorem Move.announces (h : Move names maxLevel s s') : Told s.world s'.world := by
  cases h with
  | quiet h => exact .quiet h
  | create _ _ _ _ hc => exact .started hc.unstored hc.running.1
  | link => exact ⟨[], (List.append_nil _).symm, fun _ => Tale.nil _⟩
  | advance hi hid _ h now => exact told_put (stored_of_frame hi hid) h.sameOrigin h.status now
  | halt hi hid hr h now =>
    exact told_announce (stored_of_frame hi hid) h.sameOrigin (by rw [hr]; rfl) now

theorem Opening.announces (h : Opening names maxLevel act w s) : Told w s.world := by
  cases h with
  | start hc => exact .started hc.unstored hc.running.1
  | resume data now hi hp =>
    exact told_announce hi ((sameOrigin_withData _ _ data).trans (sameOrigin_goingOn _ _ now))
      (not_terminal_of_parked hp) now
  | wake now h =>
    exact told_announce h.stored ((sameOrigin_withOutputs _ _ _).trans (sameOrigin_goingOn _ _ now))
      h.not_terminal now
  | @note _ i child link d now h =>
    exact told_put h.stored (sameOrigin_noted _ _ _)
      (rememberChild_status i child link.parentNodeId) now
  | failWith now h =>
    exact told_announce h.stored (sameOrigin_failedWith _ _ _ now) h.not_terminal now
  | pause now hi ht => exact told_announce hi (sameOrigin_held _ now) ht now
  | cancel now hi ht => exact told_announce hi (sameOrigin_setStatus _ _ now) ht now

theorem upkeep_told (start : World) : Upkeep names maxLevel (fun _ => True) (Told start) where
  quiet hq ht := ht.trans (.quiet hq)
  move hm ht := ht.trans hm.announces
  opening ho _ ht := ht.trans ho.announces
  -- a single step writes its record with the state that it had, and announces none
  step n o vars t t' now hstored ht :=
    ht.trans (told_put hstored (sameOrigin_recordStep _ n o vars t t') rfl now)

/-- **The states that an operation writes are those that it announces.** -/
theorem Performed.announces (h : Performed names maxLevel w op result w') : Told w w' :=
  (upkeep_told w).performed h (fun _ _ => trivial) (Told.refl w)

theorem after_told (ho : Orderly env.idName w) (calls : List Call) : Told w (after env w calls) :=
  after_induct (P := Told w) calls ho (Told.refl w) fun _ hp hv => hv.trans hp.announces

end Engine
end Workflows
