import Workflows.Proofs.Node.Ran

/-!
# Nodes that fail leave no trace

Whatever can fail in a node fails before its first effect.

* `Untouched`   two sessions with the same variables, open loops and contents of the store
* `Spares P`    a computation that touches nothing where it fails, or its answer satisfies `P`
* `Lasts P`     a computation that does not fail, and whose answers satisfy `P`

A handler is a list of checks, then one step that may fail, then steps that do not.  The checks
spare everything, whatever they answer (`Spares.next`); what comes behind the step that may fail
lasts (`Spares.commit`).  There is one statement for each kind of node.

Main statements: a node that fails leaves its session alone (`execute_untouched`), and so do the
failed attempts of a node that is run again (`runWithRetries_lastAttempt`).
-/

namespace Workflows
variable {α β : Type}

/-- The same variables, open loops and contents of the store; ids may have been generated. -/
structure Untouched (s s' : Session) : Prop where
  vars : s'.vars = s.vars
  loops : s'.loops = s.loops
  snapshot : s'.world.store.toSnapshot = s.world.store.toSnapshot
  ids : s.world.ids ≤ s'.world.ids

namespace Untouched
variable {s s' s'' : Session}

theorem refl (s : Session) : Untouched s s := ⟨rfl, rfl, rfl, Nat.le_refl _⟩

theorem trans (h : Untouched s s') (h' : Untouched s' s'') : Untouched s s'' :=
  ⟨h'.vars.trans h.vars, h'.loops.trans h.loops, h'.snapshot.trans h.snapshot,
    Nat.le_trans h.ids h'.ids⟩

theorem fresh {names : Nat → String} (h : Untouched s s') (hf : Fresh names s.world) :
    Fresh names s'.world := by
  have hi : s'.world.store.instances = s.world.store.instances :=
    congrArg Snapshot.instances h.snapshot
  have hl : s'.world.store.links = s.world.store.links := congrArg Snapshot.links h.snapshot
  refine ⟨hf.distinct, fun n hn => ?_, fun n hn => ?_⟩
  · rw [Store.getInstance?, hi]
    exact hf.unstored n (Nat.le_trans h.ids hn)
  · rw [Store.getLink?, hl]
    exact hf.unlinked n (Nat.le_trans h.ids hn)

end Untouched

def Outcome.Failed (o : Outcome) : Prop := o.status = .failed

/-- a condition that no answer satisfies -/
def Never : α → Prop := fun _ => False

namespace NodeRun

/-- From a session, a computation touches nothing if it fails or its answer satisfies `P`. -/
def SparesFrom (s : Session) (P : α → Prop) (x : NodeRun α) : Prop :=
  (∀ a, (runFrom x s).1 = .ok a → P a) → Untouched s (runFrom x s).2

def Spares (P : α → Prop) (x : NodeRun α) : Prop := ∀ s, SparesFrom s P x

def Lasts (P : α → Prop) (x : NodeRun α) : Prop := ∀ s, ∃ a, (runFrom x s).1 = .ok a ∧ P a

/-! ### steps that do not fail -/

namespace Lasts

theorem pure {P : α → Prop} {a : α} (h : P a) : Lasts P (pure a : NodeRun α) := fun _ => ⟨a, rfl, h⟩

theorem next {P : β → Prop} {x : NodeRun α} {f : α → NodeRun β} (hx : Lasts Unconditional x)
    (hf : ∀ a, Lasts P (f a)) : Lasts P (x >>= f) := by
  intro s
  obtain ⟨a, ha, _⟩ := hx s
  have hrun : runFrom x s = (.ok a, (runFrom x s).2) := Prod.ext ha rfl
  rw [runFrom_bind_ok hrun]
  exact hf a _

theorem onWorld (f : StateM World α) : Lasts Unconditional (onWorld f) := fun _ => ⟨_, rfl, trivial⟩

theorem modify (f : Session → Session) : Lasts Unconditional (modify f : NodeRun PUnit) :=
  fun _ => ⟨_, rfl, trivial⟩

theorem vars : Lasts Unconditional vars := fun _ => ⟨_, rfl, trivial⟩

theorem setVar (name : String) (value : Json) : Lasts Unconditional (setVar name value) := modify _

theorem setVar? (name : Option String) (value : Json) :
    Lasts Unconditional (setVar? name value) := by
  cases name with
  | some n => exact setVar n value
  | none => exact pure trivial

theorem changeStore (f : Store → Store) : Lasts Unconditional (changeStore f) := onWorld _

theorem fromStore (f : Store → α) : Lasts Unconditional (fromStore f) := onWorld _

theorem now (c : NodeContext) : Lasts Unconditional c.now := onWorld _

theorem freshId (c : NodeContext) : Lasts Unconditional c.freshId := onWorld _

theorem info (c : NodeContext) (n : Node) (m : String) : Lasts Unconditional (c.info n m) := by
  unfold NodeContext.info NodeContext.message
  exact onWorld _

/-- an outcome with an output only -/
theorem done (v : Json) : Lasts (fun o => ¬ o.Failed) (return .done v : NodeRun Outcome) :=
  pure nofun

theorem waiting (w : Wait) (v : Option Json) :
    Lasts (fun o => ¬ o.Failed) (return .waiting w v : NodeRun Outcome) := pure nofun

end Lasts

/-! ### checks -/

namespace SparesFrom
variable {s : Session} {P : β → Prop} {x : NodeRun α} {f : α → NodeRun β}

/-- a check -/
theorem next (hx : Spares Unconditional x)
    (hf : ∀ a s', Untouched s s' → SparesFrom s' P (f a)) : SparesFrom s P (x >>= f) := by
  intro h
  have hcheck := hx s fun _ _ => trivial
  rw [runFrom_bind] at h ⊢
  rcases hr : runFrom x s with ⟨r, s'⟩
  rw [hr] at h hcheck
  cases r with
  | ok a => exact hcheck.trans (hf a s' hcheck h)
  | error e => exact hcheck

/-- the last step that may fail -/
theorem commit (hx : SparesFrom s Never x) (hf : ∀ a, Lasts (fun b => ¬ P b) (f a)) :
    SparesFrom s P (x >>= f) := by
  intro h
  rw [runFrom_bind] at h ⊢
  rcases hr : runFrom x s with ⟨r, s'⟩
  rw [hr] at h
  cases r with
  | ok a =>
    obtain ⟨b, hb, hnot⟩ := hf a s'
    exact absurd (h b hb) hnot
  | error e =>
    have herror := hx fun a ha => by
      rw [hr] at ha
      cases ha
    rw [hr] at herror
    exact herror

end SparesFrom

namespace Spares
variable {P : β → Prop}

theorem pure (a : β) : Spares P (pure a : NodeRun β) := fun s _ => .refl s

theorem throw (e : NodeError) : Spares P (throw e : NodeRun β) := fun s _ => .refl s

theorem of_lasts {x : NodeRun β} (h : Lasts (fun b => ¬ P b) x) : Spares P x := by
  intro s hs
  obtain ⟨b, hb, hnot⟩ := h s
  exact absurd (hs b hb) hnot

theorem next {x : NodeRun α} {f : α → NodeRun β} (hx : Spares Unconditional x)
    (hf : ∀ a, Spares P (f a)) : Spares P (x >>= f) :=
  fun _ => .next hx fun a s' _ => hf a s'

theorem commit {x : NodeRun α} {f : α → NodeRun β} (hx : Spares Never x)
    (hf : ∀ a, Lasts (fun b => ¬ P b) (f a)) : Spares P (x >>= f) :=
  fun s => .commit (hx s) hf

theorem onWorld {f : StateM World β} (hs : ∀ w, (f.run w).2.store.toSnapshot = w.store.toSnapshot)
    (hi : ∀ w, w.ids ≤ (f.run w).2.ids) : Spares P (onWorld f) :=
  fun s _ => ⟨rfl, rfl, hs s.world, hi s.world⟩

theorem misconfigured (reason : String) : Spares P (misconfigured reason : NodeRun β) := throw _

theorem demand (value : Option β) (reason : String) : Spares P (demand value reason) := by
  cases value with
  | some a => exact pure a
  | none => exact misconfigured reason

theorem vars {P : Vars → Prop} : Spares P vars := fun s _ => .refl s

theorem fromStore (f : Store → β) : Spares P (fromStore f) :=
  onWorld (fun _ => rfl) fun _ => Nat.le_refl _

theorem now {P : Instant → Prop} (c : NodeContext) : Spares P c.now :=
  onWorld (fun _ => rfl) fun _ => Nat.le_refl _

theorem freshId {P : String → Prop} (c : NodeContext) : Spares P c.freshId :=
  onWorld (fun _ => rfl) fun _ => Nat.le_succ _

theorem message {P : Unit → Prop} (c : NodeContext) (n : Node) (m : NodeMessage) :
    Spares P (c.message n m) :=
  onWorld (fun _ => rfl) fun _ => Nat.le_refl _

theorem info {P : Unit → Prop} (c : NodeContext) (n : Node) (m : String) : Spares P (c.info n m) :=
  message c n _

theorem warn {P : Unit → Prop} (c : NodeContext) (n : Node) (m : String) : Spares P (c.warn n m) :=
  message c n _

theorem settings (n : Node) (decode : Decoder β) : Spares P (n.settings decode) := by
  unfold Node.settings
  split
  · exact pure _
  · exact misconfigured _

theorem deadline {P : Instant → Prop} (c : NodeContext) (n : Node) (seconds : Float) :
    Spares P (n.deadline c seconds) :=
  (now c).next fun _ => demand _ _

end Spares
end NodeRun

/-! ### records -/

namespace Store

/-- an operation on a collection changes no contents where it fails, if its body does so -/
theorem snapshot_access (s : Store) (collection : String)
    {f : Store → Except StorageError α × Store}
    (h : ∀ t e, (f t).1 = .error e → (f t).2.toSnapshot = t.toSnapshot) {e : StorageError}
    (he : (s.access collection f).1 = .error e) :
    (s.access collection f).2.toSnapshot = s.toSnapshot := by
  unfold access at he ⊢
  split at he
  · rfl
  · exact h (s.touch collection) e he

end Store

namespace NodeRun

theorem runFrom_onStore (f : Store → Except StorageError α × Store) (s : Session) :
    runFrom (onStore f) s =
      (match (f s.world.store).1 with
        | .ok a => .ok a
        | .error e => .error (.storage e),
      { s with world := { s.world with store := (f s.world.store).2 } }) := by
  unfold onStore
  show runFrom (match (f s.world.store).1 with
    | .ok a => (return a : NodeRun α)
    | .error e => throw (.storage e))
      { s with world := { s.world with store := (f s.world.store).2 } } = _
  cases (f s.world.store).1 with
  | ok a => rfl
  | error e => rfl

theorem Spares.onStore {f : Store → Except StorageError α × Store}
    (h : ∀ t e, (f t).1 = .error e → (f t).2.toSnapshot = t.toSnapshot) :
    Spares Never (onStore f) := by
  intro s hs
  rw [runFrom_onStore] at hs ⊢
  refine ⟨rfl, rfl, ?_, Nat.le_refl _⟩
  cases hr : (f s.world.store).1 with
  | error e => exact h s.world.store e hr
  | ok a =>
    simp only [hr] at hs
    exact (hs a rfl).elim

end NodeRun

namespace Node
open NodeRun
variable (c : NodeContext) (n : Node)

/-! ### branches and assignments -/

theorem decision_spares : Spares Outcome.Failed (n.decision c) := by
  refine (Spares.settings n _).next fun s => (Spares.demand _ _).next fun condition => ?_
  refine Spares.vars.next fun vs => ?_
  split
  · exact Spares.pure _
  · exact (Spares.warn c n _).next fun _ => Spares.pure _

theorem switch_spares : Spares Outcome.Failed n.switch :=
  (Spares.settings n _).next fun _ => (Spares.demand _ _).next fun _ => Spares.vars.next fun _ =>
    Spares.pure _

theorem assign_lasts (as : List VariableAssignment) (assigned : Vars) :
    Lasts Unconditional (assign as assigned) := by
  induction as generalizing assigned with
  | nil => exact Lasts.pure trivial
  | cons a as ih => exact Lasts.vars.next fun vs => (Lasts.setVar _ _).next fun _ => ih _

theorem assignment_spares : Spares Outcome.Failed n.assignment :=
  (Spares.settings n _).next fun as =>
    Spares.of_lasts ((assign_lasts as []).next fun _ => Lasts.done _)

/-! ### timers and events -/

theorem timerWait_spares (mode : String) (time : Instant) :
    Spares Outcome.Failed (timerWait c mode time) :=
  (Spares.freshId c).next fun _ => Spares.pure _

theorem timer_spares : Spares Outcome.Failed (n.timer c) := by
  refine (Spares.settings n _).next fun s => ?_
  split
  · exact (Spares.deadline c n _).next fun time => timerWait_spares c _ time
  · refine (Spares.demand _ _).next fun raw => Spares.vars.next fun vs => ?_
    exact (Spares.demand _ _).next fun time => timerWait_spares c _ time
  · exact (Spares.deadline c n _).next fun time => Spares.pure _
  · exact Spares.misconfigured _

theorem emitEvent_lasts (name : String) (payload : Json) :
    Lasts (fun o => ¬ o.Failed) (emitEvent c n name payload) := by
  refine (Lasts.freshId c).next fun id => Lasts.vars.next fun vs => (Lasts.now c).next
    fun time => ?_
  exact (Lasts.changeStore _).next fun _ => (Lasts.info c n _).next fun _ => Lasts.done _

theorem awaitEvent_spares (name : String) (timeout : Option Int) :
    Spares Outcome.Failed (awaitEvent c n name timeout) :=
  (Spares.deadline c n _).next fun _ => Spares.pure _

theorem event_spares : Spares Outcome.Failed (n.event c) := by
  refine (Spares.settings n _).next fun s => ?_
  refine (Spares.demand _ _).next fun name => Spares.vars.next fun vs => ?_
  split
  · exact Spares.of_lasts (emitEvent_lasts c n _ _)
  · exact Spares.of_lasts (emitEvent_lasts c n _ _)
  · exact awaitEvent_spares c n _ _
  · exact awaitEvent_spares c n _ _
  · exact Spares.misconfigured _

/-! ### work for people -/

theorem assignTask_lasts (t : TaskSettings) : Lasts Unconditional (assignTask t) := by
  refine (Lasts.fromStore _).next fun assignee => (Lasts.fromStore _).next fun counts => ?_
  cases assignee with
  | some user =>
    cases counts with
    | true => exact (Lasts.changeStore _).next fun _ => Lasts.pure trivial
    | false => exact Lasts.pure trivial
  | none => exact Lasts.pure trivial

/-- The work of an assignee is counted behind all checks. -/
theorem task_spares : Spares Outcome.Failed (n.task c) := by
  refine (Spares.settings n _).next fun s => ?_
  extract_lets leave
  have hleave : ∀ dueDate, Spares Outcome.Failed (leave dueDate) := by
    intro dueDate
    refine Spares.of_lasts ((assignTask_lasts s).next fun assignee => (Lasts.freshId c).next
      fun id => (Lasts.now c).next fun time => Lasts.vars.next fun vs => ?_)
    exact (Lasts.changeStore _).next fun _ => (Lasts.info c n _).next fun _ => Lasts.waiting _ _
  split
  · exact (Spares.deadline c n _).next fun time => hleave (some time)
  · exact hleave none

theorem approval_spares : Spares Outcome.Failed (n.approval c) := by
  refine (Spares.settings n _).next fun s => Spares.of_lasts ?_
  refine (Lasts.freshId c).next fun id => (Lasts.now c).next fun time => Lasts.vars.next
    fun vs => ?_
  exact (Lasts.changeStore _).next fun _ => Lasts.waiting _ _

theorem form_spares : Spares Outcome.Failed n.form :=
  (Spares.settings n _).next fun _ => (Spares.demand _ _).next fun _ => Spares.pure _

theorem screen_spares : Spares Outcome.Failed n.screen :=
  (Spares.settings n _).next fun _ => Spares.pure _

/-! ### loops -/

theorem enterLoop_spares : Spares Never (enterLoop n) := by
  intro s
  simp only [SparesFrom, enterLoop, runFrom_bind_ok (runFrom_get s)]
  split
  · exact fun h => (h _ rfl).elim
  · exact fun _ => .refl s

/-- a loop that is opened and reports its bounds -/
theorem openLoop_spares (more : List (String × Json)) : Spares Outcome.Failed (do
      let frame ← enterLoop n
      return loopOutcome n frame more) :=
  (enterLoop_spares n).commit fun _ => Lasts.done _

theorem loopForEach_spares : Spares Outcome.Failed n.loopForEach := by
  refine (Spares.settings n _).next fun s => Spares.vars.next fun vs => ?_
  split
  · exact (Spares.pure _).next fun items => openLoop_spares n _
  · exact (Spares.pure _).next fun items => openLoop_spares n _
  · exact (Spares.misconfigured _).next fun items => openLoop_spares n _

theorem loopWhile_spares : Spares Outcome.Failed n.loopWhile :=
  (Spares.settings n _).next fun _ => (Spares.demand _ _).next fun _ => Spares.vars.next
    fun _ => openLoop_spares n _

theorem loopDoWhile_spares : Spares Outcome.Failed n.loopDoWhile :=
  (Spares.settings n _).next fun _ => Spares.vars.next fun _ => openLoop_spares n _

theorem countOf_spares (v : Json) : Spares Unconditional (countOf n v) := by
  unfold countOf
  split
  · exact Spares.pure _
  · exact Spares.demand _ _
  · exact Spares.demand _ _

theorem loopRepeat_spares : Spares Outcome.Failed n.loopRepeat :=
  (Spares.settings n _).next fun _ => Spares.vars.next fun _ => (countOf_spares n _).next
    fun _ => openLoop_spares n _

theorem exitLoop_lasts : Lasts Unconditional exitLoop := fun _ => ⟨_, rfl, trivial⟩

theorem loopControl_spares : Spares Outcome.Failed n.loopControl := by
  refine (Spares.settings n _).next fun guard => Spares.vars.next fun vs => Spares.of_lasts ?_
  dsimp only
  split
  · split
    · exact exitLoop_lasts.next fun _ => Lasts.pure nofun
    · exact (Lasts.modify _).next fun _ => Lasts.pure nofun
  · exact Lasts.done _

/-! ### actions -/

/-- A reply may be a failure, but it has changed nothing. -/
theorem call_spares (s : ActionSettings) (method : String) (body : Option Json) :
    Spares Outcome.Failed (call c n s method body) := by
  refine (Spares.demand _ _).next fun url => Spares.vars.next fun vs => (Spares.info c n _).next
    fun _ => ?_
  refine (Spares.onWorld (fun _ => rfl) fun _ => Nat.le_refl _).next fun r => ?_
  cases r with
  | ok reply => exact Spares.pure _
  | error e => exact Spares.throw e

theorem action_spares : Spares Outcome.Failed (n.action c) := by
  refine (Spares.settings n _).next fun s => Spares.vars.next fun vs => ?_
  split
  · exact call_spares c n s _ _
  · exact call_spares c n s _ _
  · exact (Spares.demand _ _).next fun _ => Spares.pure _
  · exact Spares.misconfigured _

/-! ### records -/

theorem recordSettings_spares : Spares Unconditional n.recordSettings :=
  (Spares.settings n _).next fun _ => (Spares.demand _ _).next fun _ => Spares.pure _

theorem lookupRecord_spares : Spares Outcome.Failed n.lookupRecord := by
  refine (recordSettings_spares n).next fun s => Spares.vars.next fun vs => ?_
  refine (Spares.onStore fun t _ => t.snapshot_access _ ?_).commit fun records => ?_
  · exact fun _ _ => nofun
  · exact (Lasts.setVar? _ _).next fun _ => Lasts.done _

theorem createRecord_spares : Spares Outcome.Failed (n.createRecord c) := by
  refine (recordSettings_spares n).next fun s => Spares.vars.next fun vs => (Spares.freshId c).next
    fun id => ?_
  refine (Spares.onStore fun t _ => t.snapshot_access _ ?_).commit fun recordId => ?_
  · exact fun _ _ => nofun
  · exact (Lasts.info c n _).next fun _ => (Lasts.setVar? _ _).next fun _ => Lasts.done _

theorem updateRecord_spares : Spares Outcome.Failed n.updateRecord := by
  refine (recordSettings_spares n).next fun s => Spares.vars.next fun vs => ?_
  refine (Spares.onStore fun t _ => t.snapshot_access _ fun u _ => ?_).commit fun updated =>
    Lasts.done _
  split
  · exact nofun
  · exact nofun

theorem deleteRecord_spares : Spares Outcome.Failed n.deleteRecord := by
  refine (recordSettings_spares n).next fun s => Spares.vars.next fun vs => ?_
  dsimp only
  split
  · exact Spares.misconfigured _
  · refine (Spares.onStore fun t _ => t.snapshot_access _ fun u _ => ?_).commit fun deleted =>
      Lasts.done _
    split
    · exact nofun
    · exact nofun

/-! ### data -/

theorem itemsOf_spares (v : Json) : Spares Unconditional (itemsOf n v) := by
  unfold itemsOf
  split
  · exact Spares.pure _
  · exact Spares.pure _
  · exact Spares.misconfigured _

theorem applyAll_spares (fs : List String) (v : Json) : Spares Unconditional (applyAll n fs v) := by
  induction fs generalizing v with
  | nil => exact Spares.pure _
  | cons f fs ih =>
    unfold applyAll
    split
    · exact ih _
    · exact Spares.throw _

/-- a value that is kept and reported -/
theorem keep_lasts (name : Option String) (value report : Json) :
    Lasts (fun o => ¬ o.Failed) (do
      setVar? name value
      return .done report : NodeRun Outcome) :=
  (Lasts.setVar? name value).next fun _ => Lasts.done report

theorem transform_spares : Spares Outcome.Failed n.transform :=
  (Spares.settings n _).next fun _ => Spares.vars.next fun _ => (applyAll_spares n _ _).next
    fun _ => Spares.of_lasts (keep_lasts _ _ _)

theorem filter_spares : Spares Outcome.Failed n.filter :=
  (Spares.settings n _).next fun _ => (Spares.demand _ _).next fun _ => Spares.vars.next fun _ =>
    (itemsOf_spares n _).next fun _ => Spares.of_lasts (keep_lasts _ _ _)

theorem sort_spares : Spares Outcome.Failed n.sort :=
  (Spares.settings n _).next fun _ => Spares.vars.next fun _ => (itemsOf_spares n _).next fun _ =>
    (Spares.demand _ _).next fun _ => Spares.of_lasts (keep_lasts _ _ _)

theorem aggregate_spares : Spares Outcome.Failed n.aggregate :=
  (Spares.settings n _).next fun _ => Spares.vars.next fun _ => (itemsOf_spares n _).next fun _ =>
    (Spares.demand _ _).next fun _ => Spares.of_lasts (keep_lasts _ _ _)

theorem calculate_spares : Spares Outcome.Failed n.calculate :=
  (Spares.settings n _).next fun _ => (Spares.demand _ _).next fun _ => Spares.vars.next fun _ =>
    Spares.of_lasts ((Lasts.setVar _ _).next fun _ => Lasts.done _)

/-! ### subprocesses -/

/-- A launcher that leaves the world as it is where it refuses an instance. -/
def RefusesCleanly (names : Nat → String) (launcher : Launcher) : Prop :=
  ∀ r w e w', Fresh names w → runFrom (launcher r) w = (.error e, w') → w' = w

theorem warnAll_spares (ws : List String) : Spares Unconditional (warnAll c n ws) := by
  induction ws with
  | nil => exact Spares.pure _
  | cons w ws ih => exact (Spares.warn c n w).next fun _ => ih

theorem childLevel_spares (max level : Nat) :
    Spares Unconditional (liftM (childLevel max level) : NodeRun Nat) := by
  unfold childLevel
  split
  · exact Spares.pure _
  · exact Spares.throw _

variable {c n} {names : Nat → String} {launcher : Launcher} {s : Session}

theorem launch_spares (hl : RefusesCleanly names launcher) (hf : Fresh names s.world)
    (r : StartRequest) : SparesFrom s Never (launch launcher r) := by
  intro h
  rcases launch_world launcher r s with ⟨id, w, _, hlaunch⟩ | ⟨e, w, e', hrun, hlaunch⟩
  · rw [hlaunch] at h
    exact (h id rfl).elim
  · rw [hlaunch, hl r s.world e w hf hrun]
    exact ⟨rfl, rfl, rfl, Nat.le_refl _⟩

/-- A child is launched behind all checks, and its link is written behind all that may fail. -/
theorem startChild_spares (hl : RefusesCleanly names launcher) (hf : Fresh names s.world) :
    SparesFrom s Never (startChild c launcher n) := by
  unfold startChild
  refine SparesFrom.next (Spares.settings n _) fun settings s₁ h₁ => ?_
  refine SparesFrom.next (Spares.demand _ _) fun workflowId s₂ h₂ => ?_
  refine SparesFrom.next (childLevel_spares _ _) fun level s₃ h₃ => ?_
  refine SparesFrom.next (Spares.fromStore _) fun report s₄ h₄ => ?_
  refine SparesFrom.next (warnAll_spares c n _) fun _ s₅ h₅ => ?_
  split
  · refine SparesFrom.next Spares.vars fun vs s₆ h₆ => ?_
    -- the checks have left the store as it is, so ids are still fresh for the launcher
    have hall := ((((h₁.trans h₂).trans h₃).trans h₄).trans h₅).trans h₆
    refine SparesFrom.commit (launch_spares hl (hall.fresh hf) _) fun childId => ?_
    refine (Lasts.onWorld _).next fun _ => (Lasts.now c).next fun createdAt => ?_
    exact (Lasts.changeStore _).next fun _ => Lasts.pure fun h => h
  · exact Spares.throw _ _

theorem subprocess_spares (hc : c.launcher = some launcher) (hl : RefusesCleanly names launcher)
    (hf : Fresh names s.world) : SparesFrom s Outcome.Failed (n.subprocess c) := by
  unfold subprocess
  rw [hc]
  exact SparesFrom.commit (startChild_spares hl hf) fun link =>
    (Lasts.info c n _).next fun _ => Lasts.waiting _ _

/-! ### all kinds -/

theorem handle_spares (c : NodeContext) (n : Node) (h : n.kind ≠ .subprocess) :
    Spares Outcome.Failed (n.handle c) := by
  unfold handle
  cases hk : n.kind with
  | subprocess => exact absurd hk h
  | start | finish | parallel | merge => exact Spares.pure _
  | task => exact task_spares c n
  | decision => exact decision_spares c n
  | switch => exact switch_spares n
  | approval => exact approval_spares c n
  | form => exact form_spares n
  | screen => exact screen_spares n
  | action => exact action_spares c n
  | timer => exact timer_spares c n
  | event => exact event_spares c n
  | assignment => exact assignment_spares n
  | loopForEach => exact loopForEach_spares n
  | loopWhile => exact loopWhile_spares n
  | loopDoWhile => exact loopDoWhile_spares n
  | loopRepeat => exact loopRepeat_spares n
  | loopBreak | loopContinue => exact loopControl_spares n
  | lookupRecord => exact lookupRecord_spares n
  | createRecord => exact createRecord_spares c n
  | updateRecord => exact updateRecord_spares n
  | deleteRecord => exact deleteRecord_spares n
  | transform => exact transform_spares n
  | filter => exact filter_spares n
  | sort => exact sort_spares n
  | aggregate => exact aggregate_spares n
  | calculate => exact calculate_spares n
  | unknown name => exact Spares.throw _

/-- What a node needs to fail without a trace: a condition on subprocess nodes only. -/
structure Sheltered (c : NodeContext) (n : Node) (s : Session) : Prop where
  fresh : n.kind = .subprocess → Fresh c.env.idName s.world
  launcher : n.kind = .subprocess →
    ∃ launcher, c.launcher = some launcher ∧ RefusesCleanly c.env.idName launcher

/-- **A node that fails leaves variables, open loops and the contents of the store alone.** -/
theorem execute_untouched (h : Sheltered c n s)
    (hfailed : ((n.execute c).run s).1.status = .failed) :
    Untouched s ((n.execute c).run s).2 := by
  have hspares : SparesFrom s Outcome.Failed (n.handle c) := by
    by_cases hk : n.kind = .subprocess
    · obtain ⟨launcher, hc, hl⟩ := h.launcher hk
      have hh : n.handle c = n.subprocess c := by rw [handle, hk]
      rw [hh]
      exact subprocess_spares hc hl (h.fresh hk)
    · exact handle_spares c n hk s
  rw [execute_run] at hfailed ⊢
  refine hspares fun o ho => ?_
  rw [ho] at hfailed
  exact hfailed

/-! ### repetitions -/

/-- a session in which no loop is open, as at the beginning of an attempt -/
def outsideLoops (c : NodeContext) (s : Session) : Session :=
  { s with loops := { maxDepth := c.env.settings.maxLoopDepth } }

theorem attempt_run (c : NodeContext) (n : Node) (s : Session) :
    (n.attempt c).run s = (n.execute c).run (outsideLoops c s) := rfl

theorem outsideLoops_noteRetry {number : Nat} {error : String} {t : Session}
    (h : Untouched (outsideLoops c s) t) :
    Untouched (outsideLoops c s) (outsideLoops c ((n.noteRetry c number error).run t).2) :=
  ⟨h.vars, rfl, h.snapshot, h.ids⟩

/-- What the last attempt of a node gives if the ones before it have left nothing behind. -/
def LastAttempt (c : NodeContext) (n : Node) (s : Session) (x : Outcome × Session) : Prop :=
  ∃ s' retries, Untouched (outsideLoops c s) s' ∧
    x = ({ ((n.execute c).run s').1 with retries := retries }, ((n.execute c).run s').2)

theorem Outcome.failed_of_transient {o : Outcome} {error : String}
    (h : o.transientError? = some error) : o.status = .failed := by
  unfold Outcome.transientError? at h
  split at h
  · next hf => exact of_decide_eq_true hf
  · cases h

theorem retrying_lastAttempt (hk : n.kind ≠ .subprocess) (left retries : Nat) (s : Session) :
    LastAttempt c n s ((retrying (n.attempt c) (n.noteRetry c) left retries).run s) := by
  induction left generalizing retries s with
  | zero => exact ⟨outsideLoops c s, retries, .refl _, rfl⟩
  | succ left ih =>
    rw [retrying_succ_run, attempt_run]
    cases ht : ((n.execute c).run (outsideLoops c s)).1.transientError? with
    | none => exact ⟨outsideLoops c s, retries, .refl _, rfl⟩
    | some error =>
      have hfailed : Untouched (outsideLoops c s) _ :=
        execute_untouched ⟨fun h => absurd h hk, fun h => absurd h hk⟩
          (Outcome.failed_of_transient ht)
      obtain ⟨s', k, hs', hlast⟩ := ih (retries + 1) _
      exact ⟨s', k, (outsideLoops_noteRetry hfailed).trans hs', hlast⟩

/-- **A node that is run again leaves no trace of its failed attempts.** -/
theorem runWithRetries_lastAttempt (c : NodeContext) (n : Node) (s : Session) :
    LastAttempt c n s ((n.runWithRetries c).run s) := by
  unfold runWithRetries
  by_cases hk : n.kind = .subprocess
  · rw [retriesOf_subprocess c.env.settings hk, retrying_zero_run, attempt_run]
    exact ⟨outsideLoops c s, 0, .refl _, rfl⟩
  · exact retrying_lastAttempt hk _ _ s

end Node
end Workflows
