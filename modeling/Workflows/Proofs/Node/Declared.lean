import Workflows.Proofs.Node.Traceless
import Workflows.Proofs.Renaming.Looks

/-!
# Variables that a node declares

A node sets variables by its settings: an assignment those that it lists, some other kinds the one for their output.

* `Vars.Written may`   variables after writes under some names
* `Keeps`              a computation that sets no variable
* `Framed may`         a computation that sets variables of some names, and none unless it completes its node
* `Node.outputNames`   the names in the settings of a node
* `Node.mappedNames`   the names under which a subprocess takes over what its child gives back

A handler is a list of steps that keep variables, then one that sets them, then its outcome.  There is one statement
for each kind of node.

Main statement: a node with its repetitions sets variables of its `outputNames` only, and none unless it completes
(`runWithRetries_framed`).
-/

namespace Workflows
variable {α β : Type}

/-- Variables after writes under some names. -/
inductive Vars.Written (may : String → Prop) (before : Vars) : Vars → Prop
  | refl : Written may before before
  | insert {vs : Vars} {name : String} (value : Json) (h : Written may before vs) (hname : may name) :
    Written may before (Dict.insert vs name value)

namespace Vars.Written
variable {may more : String → Prop} {vs ws us : Vars}

theorem trans (h : Written may vs ws) (h' : Written may ws us) : Written may vs us := by
  induction h' with
  | refl => exact h
  | insert value _ hname ih => exact ih.insert value hname

theorem mono (h : Written may vs ws) (hmore : ∀ name, may name → more name) : Written more vs ws := by
  induction h with
  | refl => exact .refl
  | insert value _ hname ih => exact ih.insert value (hmore _ hname)

theorem get? (h : Written may vs ws) {name : String} (hname : ¬ may name) :
    Dict.get? ws name = Dict.get? vs name := by
  induction h with
  | refl => rfl
  | insert value _ hother ih =>
    rw [Dict.get?_insert_of_ne]
    · exact ih
    · rintro rfl
      exact hname hother

theorem eq_of_none (h : Written may vs ws) (hnone : ∀ name, ¬ may name) : ws = vs := by
  induction h with
  | refl => rfl
  | insert _ _ hname _ => exact absurd hname (hnone _)

theorem overlay (vs : Vars) {upper : Vars} (h : ∀ e ∈ upper, may e.1) :
    Written may vs (Dict.overlay vs upper) := by
  induction upper generalizing vs with
  | nil => exact .refl
  | cons e upper ih =>
    have hfirst : Written may vs (Dict.insert vs e.1 e.2) :=
      Written.refl.insert e.2 (h e List.mem_cons_self)
    exact hfirst.trans (ih _ fun f hf => h f (List.mem_cons_of_mem e hf))

end Vars.Written

namespace NodeRun

/-! ### computations that set no variable -/

def Keeps (x : NodeRun α) : Prop := ∀ s, (runFrom x s).2.vars = s.vars

namespace Keeps

theorem pure (a : α) : Keeps (pure a : NodeRun α) := fun _ => rfl

theorem throw (e : NodeError) : Keeps (throw e : NodeRun α) := fun _ => rfl

theorem next {x : NodeRun α} {f : α → NodeRun β} (hx : Keeps x) (hf : ∀ a, Keeps (f a)) :
    Keeps (x >>= f) := by
  intro s
  have hkept := hx s
  rw [runFrom_bind]
  rcases hr : runFrom x s with ⟨r, t⟩
  rw [hr] at hkept
  cases r with
  | ok a => exact (hf a t).trans hkept
  | error e => exact hkept

theorem modify (f : Session → Session) (h : ∀ s, (f s).vars = s.vars) :
    Keeps (modify f : NodeRun PUnit) := h

theorem vars : Keeps vars := fun _ => rfl

theorem misconfigured (reason : String) : Keeps (misconfigured reason : NodeRun α) := throw _

theorem demand (value : Option α) (reason : String) : Keeps (demand value reason) := by
  cases value with
  | some a => exact pure a
  | none => exact misconfigured reason

theorem onWorld (f : StateM World α) : Keeps (onWorld f) := fun _ => rfl

theorem onStore (f : Store → Except StorageError α × Store) : Keeps (onStore f) := by
  intro s
  rw [runFrom_onStore]

theorem changeStore (f : Store → Store) : Keeps (changeStore f) := onWorld _

theorem fromStore (f : Store → α) : Keeps (fromStore f) := onWorld _

theorem now (c : NodeContext) : Keeps c.now := onWorld _

theorem freshId (c : NodeContext) : Keeps c.freshId := onWorld _

theorem message (c : NodeContext) (n : Node) (m : NodeMessage) : Keeps (c.message n m) := onWorld _

theorem info (c : NodeContext) (n : Node) (m : String) : Keeps (c.info n m) := message c n _

theorem warn (c : NodeContext) (n : Node) (m : String) : Keeps (c.warn n m) := message c n _

theorem settings (n : Node) (decode : Decoder α) : Keeps (n.settings decode) := by
  unfold Node.settings
  split
  · exact pure _
  · exact misconfigured _

theorem deadline (c : NodeContext) (n : Node) (seconds : Float) : Keeps (n.deadline c seconds) :=
  (now c).next fun _ => demand _ _

end Keeps

/-! ### computations that set some variables -/

/-- A computation that sets variables of some names, and none unless it completes its node. -/
structure Framed (may : String → Prop) (x : NodeRun Outcome) : Prop where
  written : ∀ s, Vars.Written may s.vars (runFrom x s).2.vars
  kept : ∀ s, (∀ o, (runFrom x s).1 = .ok o → o.status ≠ .completed) → (runFrom x s).2.vars = s.vars

namespace Framed
variable {may : String → Prop}

theorem of_keeps {x : NodeRun Outcome} (h : Keeps x) : Framed may x := by
  refine ⟨fun s => ?_, fun s _ => h s⟩
  rw [h s]
  exact .refl

theorem after {x : NodeRun α} {f : α → NodeRun Outcome} (hx : Keeps x)
    (hf : ∀ a s t, runFrom x s = (.ok a, t) → Framed may (f a)) : Framed may (x >>= f) := by
  constructor
  · intro s
    have hkept := hx s
    rw [runFrom_bind]
    rcases hr : runFrom x s with ⟨r, t⟩
    rw [hr] at hkept
    change t.vars = s.vars at hkept
    rw [← hkept]
    cases r with
    | ok a => exact (hf a s t hr).written t
    | error e => exact .refl
  · intro s hs
    have hkept := hx s
    rw [runFrom_bind] at hs ⊢
    rcases hr : runFrom x s with ⟨r, t⟩
    rw [hr] at hs hkept
    cases r with
    | ok a => exact ((hf a s t hr).kept t hs).trans hkept
    | error e => exact hkept

/-- what the settings say -/
theorem settings {n : Node} {decode : Decoder α} {f : α → NodeRun Outcome}
    (hf : ∀ a, n.read? decode = some a → Framed may (f a)) : Framed may (n.settings decode >>= f) := by
  refine after (Keeps.settings n decode) fun a s t hr => hf a ?_
  unfold Node.settings at hr
  unfold Node.read?
  split at hr
  · next b hb =>
    cases hr
    exact hb
  · cases hr

theorem next {x : NodeRun α} {f : α → NodeRun Outcome} (hx : Keeps x) (hf : ∀ a, Framed may (f a)) :
    Framed may (x >>= f) :=
  after hx fun a _ _ _ => hf a

/-- writes behind which the node is completed -/
theorem commit {x : NodeRun α} {f : α → NodeRun Outcome}
    (hx : ∀ s, ∃ a vs, runFrom x s = (.ok a, { s with vars := vs }) ∧ Vars.Written may s.vars vs)
    (hf : ∀ a, ∃ v, f a = return .done v) : Framed may (x >>= f) := by
  constructor
  · intro s
    obtain ⟨a, vs, hrun, hwritten⟩ := hx s
    obtain ⟨v, hv⟩ := hf a
    rw [runFrom_bind_ok hrun, hv]
    exact hwritten
  · intro s hs
    obtain ⟨a, vs, hrun, -⟩ := hx s
    obtain ⟨v, hv⟩ := hf a
    rw [runFrom_bind_ok hrun, hv] at hs
    exact absurd rfl (hs _ rfl)

/-- a value that is kept and reported -/
theorem keep {name : String} (hname : may name) (value report : Json) : Framed may (do
    setVar name value
    return .done report) :=
  commit (fun _ => ⟨_, _, rfl, Vars.Written.refl.insert value hname⟩) fun _ => ⟨report, rfl⟩

theorem keep? {name : Option String} (hname : ∀ n, name = some n → may n) (value report : Json) :
    Framed may (do
      setVar? name value
      return .done report) := by
  cases name with
  | some n => exact keep (hname n rfl) value report
  | none => exact of_keeps (Keeps.pure _)

end Framed
end NodeRun

namespace Node
open NodeRun

/-! ## Declared names -/

/-- the names in the settings of a node under which it sets variables -/
def outputNames (n : Node) : List String :=
  match n.kind with
  | .assignment => ((n.read? assignmentsOf).getD []).map (·.name)
  | .lookupRecord | .createRecord => ((n.read? RecordSettings.decode).bind (·.outputVariable)).toList
  | .transform => ((n.read? TransformSettings.decode).bind (·.outputVariable)).toList
  | .filter => ((n.read? FilterSettings.decode).bind (·.outputVariable)).toList
  | .sort => ((n.read? SortSettings.decode).bind (·.outputVariable)).toList
  | .aggregate => ((n.read? AggregateSettings.decode).bind (·.outputVariable)).toList
  | .calculate => ((n.read? CalculateSettings.decode).map fun s => s.outputVariable.getD "result").toList
  | _ => []

/-- the names under which a subprocess takes over what its child gives back -/
def mappedNames (n : Node) : List String :=
  match n.kind with
  | .subprocess => ((n.read? SubprocessSettings.decode).map fun s => Dict.keys s.outputMapping).getD []
  | _ => []

variable (c : NodeContext) (n : Node) {may : String → Prop}

/-! ## Kinds that set no variable -/

theorem decision_keeps : Keeps (n.decision c) := by
  refine (Keeps.settings n _).next fun s => (Keeps.demand _ _).next fun condition => ?_
  refine Keeps.vars.next fun vs => ?_
  split
  · exact Keeps.pure _
  · exact (Keeps.warn c n _).next fun _ => Keeps.pure _

theorem switch_keeps : Keeps n.switch :=
  (Keeps.settings n _).next fun _ => (Keeps.demand _ _).next fun _ => Keeps.vars.next fun _ =>
    Keeps.pure _

theorem timerWait_keeps (mode : String) (time : Instant) : Keeps (timerWait c mode time) :=
  (Keeps.freshId c).next fun _ => Keeps.pure _

theorem timer_keeps : Keeps (n.timer c) := by
  refine (Keeps.settings n _).next fun s => ?_
  split
  · exact (Keeps.deadline c n _).next fun time => timerWait_keeps c _ time
  · refine (Keeps.demand _ _).next fun raw => Keeps.vars.next fun vs => ?_
    exact (Keeps.demand _ _).next fun time => timerWait_keeps c _ time
  · exact (Keeps.deadline c n _).next fun time => Keeps.pure _
  · exact Keeps.misconfigured _

theorem emitEvent_keeps (name : String) (payload : Json) : Keeps (emitEvent c n name payload) := by
  refine (Keeps.freshId c).next fun id => Keeps.vars.next fun vs => (Keeps.now c).next fun time => ?_
  exact (Keeps.changeStore _).next fun _ => (Keeps.info c n _).next fun _ => Keeps.pure _

theorem awaitEvent_keeps (name : String) (timeout : Option Int) :
    Keeps (awaitEvent c n name timeout) :=
  (Keeps.deadline c n _).next fun _ => Keeps.pure _

theorem event_keeps : Keeps (n.event c) := by
  refine (Keeps.settings n _).next fun s => (Keeps.demand _ _).next fun name => Keeps.vars.next fun vs => ?_
  split
  · exact emitEvent_keeps c n _ _
  · exact emitEvent_keeps c n _ _
  · exact awaitEvent_keeps c n _ _
  · exact awaitEvent_keeps c n _ _
  · exact Keeps.misconfigured _

theorem assignTask_keeps (t : TaskSettings) : Keeps (assignTask t) := by
  refine (Keeps.fromStore _).next fun assignee => (Keeps.fromStore _).next fun counts => ?_
  cases assignee with
  | some user =>
    cases counts with
    | true => exact (Keeps.changeStore _).next fun _ => Keeps.pure _
    | false => exact Keeps.pure _
  | none => exact Keeps.pure _

theorem task_keeps : Keeps (n.task c) := by
  refine (Keeps.settings n _).next fun s => ?_
  extract_lets leave
  have hleave : ∀ dueDate, Keeps (leave dueDate) := by
    intro dueDate
    refine (assignTask_keeps s).next fun assignee => (Keeps.freshId c).next fun id =>
      (Keeps.now c).next fun time => Keeps.vars.next fun vs => ?_
    exact (Keeps.changeStore _).next fun _ => (Keeps.info c n _).next fun _ => Keeps.pure _
  split
  · exact (Keeps.deadline c n _).next fun time => hleave (some time)
  · exact hleave none

theorem approval_keeps : Keeps (n.approval c) := by
  refine (Keeps.settings n _).next fun s => (Keeps.freshId c).next fun id => (Keeps.now c).next fun time => ?_
  exact Keeps.vars.next fun vs => (Keeps.changeStore _).next fun _ => Keeps.pure _

theorem form_keeps : Keeps n.form :=
  (Keeps.settings n _).next fun _ => (Keeps.demand _ _).next fun _ => Keeps.pure _

theorem screen_keeps : Keeps n.screen := (Keeps.settings n _).next fun _ => Keeps.pure _

theorem enterLoop_keeps : Keeps (enterLoop n) := by
  intro s
  simp only [enterLoop, runFrom_bind_ok (runFrom_get s)]
  split
  · rfl
  · rfl

/-- a loop that is opened and reports its bounds -/
theorem openLoop_keeps (more : List (String × Json)) : Keeps (do
    let frame ← enterLoop n
    return loopOutcome n frame more) :=
  (enterLoop_keeps n).next fun _ => Keeps.pure _

theorem loopForEach_keeps : Keeps n.loopForEach := by
  refine (Keeps.settings n _).next fun s => Keeps.vars.next fun vs => ?_
  split
  · exact (Keeps.pure _).next fun items => openLoop_keeps n _
  · exact (Keeps.pure _).next fun items => openLoop_keeps n _
  · exact (Keeps.misconfigured _).next fun items => openLoop_keeps n _

theorem loopWhile_keeps : Keeps n.loopWhile :=
  (Keeps.settings n _).next fun _ => (Keeps.demand _ _).next fun _ => Keeps.vars.next fun _ =>
    openLoop_keeps n _

theorem loopDoWhile_keeps : Keeps n.loopDoWhile :=
  (Keeps.settings n _).next fun _ => Keeps.vars.next fun _ => openLoop_keeps n _

theorem countOf_keeps (v : Json) : Keeps (countOf n v) := by
  unfold countOf
  split
  · exact Keeps.pure _
  · exact Keeps.demand _ _
  · exact Keeps.demand _ _

theorem loopRepeat_keeps : Keeps n.loopRepeat :=
  (Keeps.settings n _).next fun _ => Keeps.vars.next fun _ => (countOf_keeps n _).next fun _ =>
    openLoop_keeps n _

theorem exitLoop_keeps : Keeps exitLoop := fun _ => rfl

theorem tickLoop_keeps : Keeps tickLoop := Keeps.modify _ fun _ => rfl

theorem loopControl_keeps : Keeps n.loopControl := by
  refine (Keeps.settings n _).next fun guard => Keeps.vars.next fun vs => ?_
  dsimp only
  split
  · split
    · exact exitLoop_keeps.next fun _ => Keeps.pure _
    · exact tickLoop_keeps.next fun _ => Keeps.pure _
  · exact Keeps.pure _

theorem call_keeps (s : ActionSettings) (method : String) (body : Option Json) :
    Keeps (call c n s method body) := by
  refine (Keeps.demand _ _).next fun url => Keeps.vars.next fun vs => (Keeps.info c n _).next fun _ => ?_
  refine (Keeps.onWorld _).next fun r => ?_
  cases r with
  | ok reply => exact Keeps.pure _
  | error e => exact Keeps.throw e

theorem action_keeps : Keeps (n.action c) := by
  refine (Keeps.settings n _).next fun s => Keeps.vars.next fun vs => ?_
  split
  · exact call_keeps c n s _ _
  · exact call_keeps c n s _ _
  · exact (Keeps.demand _ _).next fun _ => Keeps.pure _
  · exact Keeps.misconfigured _

theorem recordSettings_keeps : Keeps n.recordSettings :=
  (Keeps.settings n _).next fun _ => (Keeps.demand _ _).next fun _ => Keeps.pure _

theorem updateRecord_keeps : Keeps n.updateRecord :=
  (recordSettings_keeps n).next fun _ => Keeps.vars.next fun _ => (Keeps.onStore _).next fun _ =>
    Keeps.pure _

theorem deleteRecord_keeps : Keeps n.deleteRecord := by
  refine (recordSettings_keeps n).next fun s => Keeps.vars.next fun vs => ?_
  dsimp only
  split
  · exact Keeps.misconfigured _
  · exact (Keeps.onStore _).next fun _ => Keeps.pure _

/-! ### subprocesses -/

theorem warnAll_keeps (ws : List String) : Keeps (warnAll c n ws) := by
  induction ws with
  | nil => exact Keeps.pure _
  | cons w ws ih => exact (Keeps.warn c n w).next fun _ => ih

theorem childLevel_keeps (max level : Nat) : Keeps (liftM (childLevel max level) : NodeRun Nat) := by
  unfold childLevel
  split
  · exact Keeps.pure _
  · exact Keeps.throw _

theorem launch_keeps (launcher : Launcher) (r : StartRequest) : Keeps (launch launcher r) := by
  unfold launch
  refine Keeps.next (fun _ => rfl) fun _ => (Keeps.onWorld _).next fun answer => ?_
  cases answer with
  | ok id => exact Keeps.pure _
  | error e => exact Keeps.throw _

theorem startChild_keeps (launcher : Launcher) : Keeps (startChild c launcher n) := by
  refine (Keeps.settings n _).next fun s => (Keeps.demand _ _).next fun workflowId => ?_
  refine (childLevel_keeps _ _).next fun level => (Keeps.fromStore _).next fun report => ?_
  refine (warnAll_keeps c n _).next fun _ => ?_
  split
  · refine Keeps.vars.next fun vs => (launch_keeps launcher _).next fun childId => ?_
    refine (Keeps.onWorld _).next fun _ => (Keeps.now c).next fun createdAt => ?_
    exact (Keeps.changeStore _).next fun _ => Keeps.pure _
  · exact Keeps.throw _

theorem subprocess_keeps : Keeps (n.subprocess c) := by
  unfold subprocess
  cases c.launcher with
  | none => exact Keeps.throw _
  | some launcher =>
    exact (startChild_keeps c n launcher).next fun link => (Keeps.info c n _).next fun _ => Keeps.pure _

/-! ## Kinds that set variables -/

theorem runFrom_settings {n : Node} {decode : Decoder α} {a : α} (h : n.read? decode = some a) (s : Session) :
    runFrom (n.settings decode) s = (.ok a, s) := by
  rw [read?] at h
  rw [settings, h]
  rfl

theorem runFrom_vars (s : Session) : runFrom vars s = (.ok s.vars, s) := rfl

theorem runFrom_setVar (name : String) (value : Json) (s : Session) :
    runFrom (setVar name value) s = (.ok (), { s with vars := Dict.insert s.vars name value }) := rfl

theorem runFrom_setVar? (name : Option String) (value : Json) (s : Session) :
    ∃ vs, runFrom (setVar? name value) s = (.ok (), { s with vars := vs }) := by
  cases name with
  | some n => exact ⟨_, runFrom_setVar n value s⟩
  | none => exact ⟨s.vars, rfl⟩

theorem assign_written {as : List VariableAssignment} (h : ∀ a ∈ as, may a.name) (assigned : Vars)
    (s : Session) : ∃ result vs, runFrom (assign as assigned) s = (.ok result, { s with vars := vs }) ∧
      Vars.Written may s.vars vs := by
  induction as generalizing assigned s with
  | nil => exact ⟨assigned, s.vars, rfl, .refl⟩
  | cons a as ih =>
    have hfirst : Vars.Written may s.vars (Dict.insert s.vars a.name (evaluateDeep s.vars a.value)) :=
      Vars.Written.refl.insert _ (h a List.mem_cons_self)
    obtain ⟨result, vs, hrun, hwritten⟩ := ih (fun b hb => h b (List.mem_cons_of_mem a hb)) _
      { s with vars := Dict.insert s.vars a.name (evaluateDeep s.vars a.value) }
    refine ⟨result, vs, ?_, hfirst.trans hwritten⟩
    unfold assign
    rw [runFrom_bind_ok (runFrom_vars s), runFrom_bind_ok (runFrom_setVar _ _ s)]
    exact hrun

theorem assignment_framed (h : ∀ as, n.read? assignmentsOf = some as → ∀ a ∈ as, may a.name) :
    Framed may n.assignment :=
  Framed.settings fun as has => Framed.commit (assign_written (h as has) []) fun _ => ⟨_, rfl⟩

theorem recordSettings_framed {f : RecordSettings × String → NodeRun Outcome}
    (hf : ∀ s collection, n.read? RecordSettings.decode = some s → Framed may (f (s, collection))) :
    Framed may (n.recordSettings >>= f) := by
  unfold recordSettings
  rw [bind_assoc]
  refine Framed.settings fun s hs => ?_
  rw [bind_assoc]
  exact Framed.next (Keeps.demand _ _) fun collection => hf s collection hs

theorem lookupRecord_framed (h : ∀ s, n.read? RecordSettings.decode = some s →
    ∀ name, s.outputVariable = some name → may name) : Framed may n.lookupRecord := by
  refine recordSettings_framed n fun s collection hs => Framed.next Keeps.vars fun vs => ?_
  exact Framed.next (Keeps.onStore _) fun records => Framed.keep? (h s hs) _ _

theorem createRecord_framed (h : ∀ s, n.read? RecordSettings.decode = some s →
    ∀ name, s.outputVariable = some name → may name) : Framed may (n.createRecord c) := by
  refine recordSettings_framed n fun s collection hs => Framed.next Keeps.vars fun vs => ?_
  refine Framed.next (Keeps.freshId c) fun freshId => Framed.next (Keeps.onStore _) fun id => ?_
  exact Framed.next (Keeps.info c n _) fun _ => Framed.keep? (h s hs) _ _

theorem itemsOf_keeps (v : Json) : Keeps (itemsOf n v) := by
  unfold itemsOf
  split
  · exact Keeps.pure _
  · exact Keeps.pure _
  · exact Keeps.misconfigured _

theorem applyAll_keeps (fs : List String) (v : Json) : Keeps (applyAll n fs v) := by
  induction fs generalizing v with
  | nil => exact Keeps.pure _
  | cons f fs ih =>
    unfold applyAll
    split
    · exact ih _
    · exact Keeps.throw _

theorem transform_framed (h : ∀ s, n.read? TransformSettings.decode = some s →
    ∀ name, s.outputVariable = some name → may name) : Framed may n.transform :=
  Framed.settings fun s hs => Framed.next Keeps.vars fun _ =>
    Framed.next (applyAll_keeps n _ _) fun _ => Framed.keep? (h s hs) _ _

theorem filter_framed (h : ∀ s, n.read? FilterSettings.decode = some s →
    ∀ name, s.outputVariable = some name → may name) : Framed may n.filter :=
  Framed.settings fun s hs => Framed.next (Keeps.demand _ _) fun _ => Framed.next Keeps.vars fun _ =>
    Framed.next (itemsOf_keeps n _) fun _ => Framed.keep? (h s hs) _ _

theorem sort_framed (h : ∀ s, n.read? SortSettings.decode = some s →
    ∀ name, s.outputVariable = some name → may name) : Framed may n.sort :=
  Framed.settings fun s hs => Framed.next Keeps.vars fun _ => Framed.next (itemsOf_keeps n _) fun _ =>
    Framed.next (Keeps.demand _ _) fun _ => Framed.keep? (h s hs) _ _

theorem aggregate_framed (h : ∀ s, n.read? AggregateSettings.decode = some s →
    ∀ name, s.outputVariable = some name → may name) : Framed may n.aggregate :=
  Framed.settings fun s hs => Framed.next Keeps.vars fun _ => Framed.next (itemsOf_keeps n _) fun _ =>
    Framed.next (Keeps.demand _ _) fun _ => Framed.keep? (h s hs) _ _

theorem calculate_framed (h : ∀ s, n.read? CalculateSettings.decode = some s →
    may (s.outputVariable.getD "result")) : Framed may n.calculate :=
  Framed.settings fun s hs => Framed.next (Keeps.demand _ _) fun _ => Framed.next Keeps.vars fun _ =>
    Framed.keep (h s hs) _ _

/-! ## All kinds -/

theorem mem_output {σ : Type} {n : Node} {decode : Decoder σ} {output : σ → Option String} {s : σ}
    {name : String} (hs : n.read? decode = some s) (hname : output s = some name) :
    name ∈ ((n.read? decode).bind output).toList := by
  rw [hs, Option.bind_some, hname]
  exact List.mem_singleton_self name

theorem handle_framed : Framed (· ∈ n.outputNames) (n.handle c) := by
  unfold handle outputNames
  cases n.kind with
  | start | finish | parallel | merge => exact Framed.of_keeps (Keeps.pure _)
  | task => exact Framed.of_keeps (task_keeps c n)
  | decision => exact Framed.of_keeps (decision_keeps c n)
  | switch => exact Framed.of_keeps (switch_keeps n)
  | approval => exact Framed.of_keeps (approval_keeps c n)
  | form => exact Framed.of_keeps (form_keeps n)
  | screen => exact Framed.of_keeps (screen_keeps n)
  | action => exact Framed.of_keeps (action_keeps c n)
  | timer => exact Framed.of_keeps (timer_keeps c n)
  | subprocess => exact Framed.of_keeps (subprocess_keeps c n)
  | event => exact Framed.of_keeps (event_keeps c n)
  | assignment =>
    refine assignment_framed n fun as has a ha => ?_
    rw [has]
    exact List.mem_map_of_mem ha
  | loopForEach => exact Framed.of_keeps (loopForEach_keeps n)
  | loopWhile => exact Framed.of_keeps (loopWhile_keeps n)
  | loopDoWhile => exact Framed.of_keeps (loopDoWhile_keeps n)
  | loopRepeat => exact Framed.of_keeps (loopRepeat_keeps n)
  | loopBreak | loopContinue => exact Framed.of_keeps (loopControl_keeps n)
  | lookupRecord => exact lookupRecord_framed n fun s hs name hname => mem_output hs hname
  | createRecord => exact createRecord_framed c n fun s hs name hname => mem_output hs hname
  | updateRecord => exact Framed.of_keeps (updateRecord_keeps n)
  | deleteRecord => exact Framed.of_keeps (deleteRecord_keeps n)
  | transform => exact transform_framed n fun s hs name hname => mem_output hs hname
  | filter => exact filter_framed n fun s hs name hname => mem_output hs hname
  | sort => exact sort_framed n fun s hs name hname => mem_output hs hname
  | aggregate => exact aggregate_framed n fun s hs name hname => mem_output hs hname
  | calculate =>
    refine calculate_framed n fun s hs => ?_
    rw [hs]
    exact List.mem_singleton_self _
  | unknown name => exact Framed.of_keeps (Keeps.throw _)

/-- a name under which a node that ended with an outcome may have set a variable -/
def Sets (n : Node) (o : Outcome) (name : String) : Prop :=
  o.status = .completed ∧ name ∈ n.outputNames

variable {c n}

theorem execute_framed (s : Session) :
    Vars.Written (n.Sets ((n.execute c).run s).1) s.vars ((n.execute c).run s).2.vars := by
  have hframed := handle_framed c n
  rw [execute_run]
  by_cases hdone : (outcomeOf (runFrom (n.handle c) s).1).status = .completed
  · exact (hframed.written s).mono fun name hname => ⟨hdone, hname⟩
  · rw [hframed.kept s]
    · exact .refl
    · intro o ho
      rw [ho] at hdone
      exact hdone

/-- **A node sets variables that its settings name**, and none unless it completes, its repetitions included. -/
theorem runWithRetries_framed (c : NodeContext) (n : Node) (s : Session) :
    Vars.Written (n.Sets ((n.runWithRetries c).run s).1) s.vars ((n.runWithRetries c).run s).2.vars := by
  obtain ⟨s', retries, huntouched, hlast⟩ := runWithRetries_lastAttempt c n s
  have hvars : s'.vars = s.vars := huntouched.vars
  rw [hlast, ← hvars]
  exact execute_framed s'

end Node
end Workflows
