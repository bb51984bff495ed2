import Workflows.Proofs.Node.Apart

/-!
# What handlers are made of

Every handler but that of a subprocess is made of the same few steps: it reads and writes variables
and open loops, asks the clock, generates ids, tells, sends, and uses the store without a look at
its instances.  What holds of these steps and of their sequence holds of all handlers.

* `Store.withInstances`   a store with other instances
* `Made`                  a computation that is made of steps, and what its answers satisfy

Main statements: all handlers but one are made of steps (`handle_made`), and so they leave instances
alone (`handle_apart`).
-/

namespace Workflows

def Store.withInstances (s : Store) (is : Dict Instance) : Store := { s with instances := is }

inductive NodeRun.Made (c : NodeContext) : {α : Type} → (α → Prop) → NodeRun α → Prop
  | pure {α : Type} {P : α → Prop} {a : α} (h : P a) : Made c P (pure a)
  | throw {α : Type} (P : α → Prop) (e : NodeError) : Made c P (throw e)
  | bind {α β : Type} {Q : α → Prop} {P : β → Prop} {x : NodeRun α} {f : α → NodeRun β}
    (hx : Made c Q x) (hf : ∀ a, Q a → Made c P (f a)) : Made c P (x >>= f)
  /-- variables and open loops -/
  | inner {α : Type} {x : NodeRun α}
    (f : Vars → LoopStack → Except NodeError α × Vars × LoopStack)
    (h : ∀ s, runFrom x s = ((f s.vars s.loops).1,
      { s with vars := (f s.vars s.loops).2.1, loops := (f s.vars s.loops).2.2 })) :
    Made c Unconditional x
  | now : Made c Unconditional c.now
  | freshId : Made c Unconditional c.freshId
  | message (n : Node) (m : NodeMessage) : Made c Unconditional (c.message n m)
  | send (r : HttpRequest) : Made c Unconditional (onWorld (c.env.send r))
  | fromStore {α : Type} {f : Store → α} (h : ∀ s is, f (s.withInstances is) = f s) :
    Made c Unconditional (fromStore f)
  /-- an operation on the store that neither looks at instances nor changes them -/
  | useStore {α : Type} {f : Store → α × Store} (hcore : ∀ s, (f s).2.core = s.core)
    (h : ∀ s is, f (s.withInstances is) = ((f s).1, (f s).2.withInstances is)) :
    Made c Unconditional (onWorld (World.onStore f))

namespace NodeRun.Made
variable {α β : Type} {c : NodeContext}

theorem next {P : β → Prop} {x : NodeRun α} {f : α → NodeRun β} (hx : Made c Unconditional x)
    (hf : ∀ a, Made c P (f a)) : Made c P (x >>= f) :=
  hx.bind fun a _ => hf a

theorem misconfigured (P : α → Prop) (reason : String) :
    Made c P (misconfigured reason : NodeRun α) :=
  throw P _

theorem demand (value : Option α) (reason : String) :
    Made c Unconditional (demand value reason) := by
  cases value with
  | some a => exact pure trivial
  | none => exact misconfigured _ _

theorem vars : Made c Unconditional vars := inner (fun vs ls => (.ok vs, vs, ls)) fun _ => rfl

theorem setVar (name : String) (value : Json) : Made c Unconditional (setVar name value) :=
  inner (fun vs ls => (.ok (), Dict.insert vs name value, ls)) fun _ => rfl

theorem setVar? (name : Option String) (value : Json) :
    Made c Unconditional (setVar? name value) := by
  cases name with
  | some n => exact setVar n value
  | none => exact pure trivial

theorem changeStore {f : Store → Store} (hcore : ∀ s, (f s).core = s.core)
    (h : ∀ s is, f (s.withInstances is) = (f s).withInstances is) :
    Made c Unconditional (changeStore f) := by
  show Made c Unconditional (onWorld (World.onStore fun s => ((), f s)))
  refine useStore hcore fun s is => ?_
  rw [h]

theorem onStore {f : Store → Except StorageError α × Store} (hcore : ∀ s, (f s).2.core = s.core)
    (h : ∀ s is, f (s.withInstances is) = ((f s).1, (f s).2.withInstances is)) :
    Made c Unconditional (onStore f) := by
  refine (useStore hcore h).next fun r => ?_
  cases r with
  | ok a => exact pure trivial
  | error e => exact throw _ _

theorem info (n : Node) (m : String) : Made c Unconditional (c.info n m) := message n (.info m)

theorem warn (n : Node) (m : String) : Made c Unconditional (c.warn n m) := message n (.warning m)

theorem settings (n : Node) (decode : Decoder α) : Made c Unconditional (n.settings decode) := by
  unfold Node.settings
  split
  · exact pure trivial
  · exact misconfigured _ _

theorem decoded (n : Node) (decode : Decoder α) :
    Made c (fun a => decode (if n.data.isNull then .obj [] else n.data) = some a)
      (n.settings decode) := by
  unfold Node.settings
  cases decode (if n.data.isNull then .obj [] else n.data) with
  | some a => exact pure rfl
  | none => exact misconfigured _ _

theorem deadline (n : Node) (seconds : Float) : Made c Unconditional (n.deadline c seconds) :=
  now.next fun _ => demand _ _

theorem done (v : Json) : Made c Outcome.Childless (return .done v) :=
  pure (Outcome.childless_of_none rfl nofun)

/-- What is made of steps leaves instances alone. -/
theorem apart {P : α → Prop} {x : NodeRun α} (h : Made c P x) : Apart P x := by
  induction h with
  | pure h => exact Apart.pure h
  | throw P e => exact Apart.throw P e
  | bind _ _ hx hf => exact hx.bind hf
  | inner f h =>
    intro s
    rw [h]
    exact ⟨Aside.refl _, fun _ _ => trivial⟩
  | now => exact Apart.onWorld fun w => Aside.refl w
  | freshId => exact Apart.onWorld (Aside.freshId c.env)
  | message n m =>
    exact Apart.onWorld (Aside.emit c.env c.instanceId (.nodeMessage n.id m) rfl)
  | send r => exact Apart.onWorld (Aside.send c.env r)
  | fromStore _ => exact Apart.onWorld fun w => Aside.refl w
  | useStore hcore _ => exact Apart.onWorld (Aside.onStore hcore)

end NodeRun.Made

namespace Store
variable {α : Type}

/-! ### records -/

theorem access_withInstances (s : Store) (is : Dict Instance) (collection : String)
    {f : Store → Except StorageError α × Store}
    (h : ∀ t, f (t.withInstances is) = ((f t).1, (f t).2.withInstances is)) :
    (s.withInstances is).access collection f =
      ((s.access collection f).1, (s.access collection f).2.withInstances is) := by
  have hfailing : (s.withInstances is).failing = s.failing := rfl
  have htouch : (s.withInstances is).touch collection = (s.touch collection).withInstances is := rfl
  unfold access
  rw [hfailing, htouch]
  cases Dict.get? s.failing collection with
  | some reason => rfl
  | none => exact h _

theorem find_withInstances (s : Store) (is : Dict Instance) (collection : String)
    (criteria : Vars) : (s.withInstances is).find collection criteria =
      ((s.find collection criteria).1, (s.find collection criteria).2.withInstances is) :=
  access_withInstances s is collection fun _ => rfl

theorem insert_withInstances (s : Store) (is : Dict Instance) (collection : String)
    (record : Json) (freshId : String) : (s.withInstances is).insert collection record freshId =
      ((s.insert collection record freshId).1,
        (s.insert collection record freshId).2.withInstances is) := by
  refine access_withInstances s is collection fun t => ?_
  split
  · rfl
  · rfl

theorem update_withInstances (s : Store) (is : Dict Instance) (collection : String)
    (criteria fields : Vars) : (s.withInstances is).update collection criteria fields =
      ((s.update collection criteria fields).1,
        (s.update collection criteria fields).2.withInstances is) := by
  refine access_withInstances s is collection fun t => ?_
  have hcollections : (t.withInstances is).collections = t.collections := rfl
  rw [hcollections]
  cases Dict.get? t.collections collection with
  | none => rfl
  | some rs => rfl

theorem delete_withInstances (s : Store) (is : Dict Instance) (collection : String)
    (criteria : Vars) : (s.withInstances is).delete collection criteria =
      ((s.delete collection criteria).1,
        (s.delete collection criteria).2.withInstances is) := by
  refine access_withInstances s is collection fun t => ?_
  have hcollections : (t.withInstances is).collections = t.collections := rfl
  rw [hcollections]
  cases Dict.get? t.collections collection with
  | none => rfl
  | some rs => rfl

end Store

namespace Node
open NodeRun
variable (c : NodeContext) (n : Node)

/-! ### branches and assignments -/

theorem decision_made : Made c Outcome.Childless (n.decision c) := by
  refine (Made.settings n _).next fun s => ?_
  refine (Made.demand _ _).next fun condition => ?_
  refine Made.vars.next fun vs => ?_
  split
  · exact Made.pure (Outcome.childless_of_none rfl nofun)
  · exact (Made.warn n _).next fun _ => Made.pure (Outcome.childless_of_none rfl nofun)

theorem switch_made : Made c Outcome.Childless n.switch := by
  refine (Made.settings n _).next fun s => ?_
  refine (Made.demand _ _).next fun subject => ?_
  exact Made.vars.next fun vs => Made.pure (Outcome.childless_of_none rfl nofun)

theorem assign_made (as : List VariableAssignment) (assigned : Vars) :
    Made c Unconditional (assign as assigned) := by
  induction as generalizing assigned with
  | nil => exact Made.pure trivial
  | cons a as ih => exact Made.vars.next fun vs => (Made.setVar _ _).next fun _ => ih _

theorem assignment_made : Made c Outcome.Childless n.assignment :=
  (Made.settings n _).next fun as => (assign_made c as []).next fun _ => Made.done _

/-! ### timers and events -/

theorem timerWait_made (mode : String) (time : Instant) :
    Made c Outcome.Childless (timerWait c mode time) :=
  (Made.freshId).next fun _ => Made.pure (Outcome.childless_waiting (by decide) _ _ _)

theorem timer_made : Made c Outcome.Childless (n.timer c) := by
  refine (Made.settings n _).next fun s => ?_
  split
  · exact (Made.deadline n _).next fun time => timerWait_made c _ time
  · refine (Made.demand _ _).next fun raw => Made.vars.next fun vs => ?_
    exact (Made.demand _ _).next fun time => timerWait_made c _ time
  · exact (Made.deadline n _).next fun time => Made.done _
  · exact Made.misconfigured _ _

theorem emitEvent_made (name : String) (payload : Json) :
    Made c Outcome.Childless (emitEvent c n name payload) := by
  refine (Made.freshId).next fun id => Made.vars.next fun vs => (Made.now).next
    fun time => ?_
  refine Made.next (Made.changeStore (fun _ => rfl) fun _ _ => rfl) fun _ => ?_
  exact (Made.info n _).next fun _ => Made.done _

theorem awaitEvent_made (name : String) (timeout : Option Int) :
    Made c Outcome.Childless (awaitEvent c n name timeout) :=
  (Made.deadline n _).next fun _ => Made.pure (Outcome.childless_waiting (by decide) _ _ _)

theorem event_made : Made c Outcome.Childless (n.event c) := by
  refine (Made.settings n _).next fun s => ?_
  refine (Made.demand _ _).next fun name => Made.vars.next fun vs => ?_
  split
  · exact emitEvent_made c n _ _
  · exact emitEvent_made c n _ _
  · exact awaitEvent_made c n _ _
  · exact awaitEvent_made c n _ _
  · exact Made.misconfigured _ _

/-! ### work for people -/

theorem leastLoaded?_withInstances (s : Store) (is : Dict Instance) (members : List String) :
    leastLoaded? (s.withInstances is) members = leastLoaded? s members := by
  induction members with
  | nil => rfl
  | cons m members ih =>
    unfold leastLoaded?
    rw [ih]
    rfl

theorem chosenAssignee_withInstances (s : Store) (is : Dict Instance) (t : TaskSettings) :
    chosenAssignee (s.withInstances is) t = chosenAssignee s t := by
  unfold chosenAssignee
  simp only [leastLoaded?_withInstances]
  rfl

theorem assignTask_made (t : TaskSettings) : Made c Unconditional (assignTask t) := by
  refine (Made.fromStore fun s is => chosenAssignee_withInstances s is t).next fun assignee => ?_
  refine (Made.fromStore fun _ _ => rfl).next fun counts => ?_
  cases assignee with
  | some user =>
    cases counts with
    | true =>
      have hwork : Made c Unconditional (NodeRun.changeStore (·.addWorkload user)) :=
        Made.changeStore (fun _ => rfl) fun _ _ => rfl
      exact hwork.next fun _ => Made.pure trivial
    | false => exact Made.pure trivial
  | none => exact Made.pure trivial

theorem task_made : Made c Outcome.Childless (n.task c) := by
  refine (Made.settings n _).next fun s => ?_
  extract_lets leave
  have hleave : ∀ dueDate, Made c Outcome.Childless (leave dueDate) := by
    intro dueDate
    refine (assignTask_made c s).next fun assignee => (Made.freshId).next fun id => ?_
    refine (Made.now).next fun time => Made.vars.next fun vs => ?_
    refine Made.next (Made.changeStore (fun _ => rfl) fun _ _ => rfl) fun _ => ?_
    refine (Made.info n _).next fun _ => ?_
    exact Made.pure (Outcome.childless_waiting (by decide) _ _ _)
  split
  · exact (Made.deadline n _).next fun time => hleave (some time)
  · exact hleave none

theorem approval_made : Made c Outcome.Childless (n.approval c) := by
  refine (Made.settings n _).next fun s => (Made.freshId).next fun id => (Made.now).next
    fun time => ?_
  refine Made.vars.next fun vs => ?_
  refine Made.next (Made.changeStore (fun _ => rfl) fun _ _ => rfl) fun _ => ?_
  exact Made.pure (Outcome.childless_waiting (by decide) _ _ _)

theorem form_made : Made c Outcome.Childless n.form :=
  (Made.settings n _).next fun _ => (Made.demand _ _).next fun _ =>
    Made.pure (Outcome.childless_waiting (by decide) _ _ _)

theorem screen_made : Made c Outcome.Childless n.screen :=
  (Made.settings n _).next fun _ => Made.pure (Outcome.childless_waiting (by decide) _ _ _)

/-! ### loops -/

theorem enterLoop_made : Made c Unconditional (enterLoop n) := by
  refine Made.inner (fun vs ls => ((ls.enter? n.id n.kind).map (·.1), vs,
    ((ls.enter? n.id n.kind).toOption.map (·.2)).getD ls)) fun s => ?_
  unfold enterLoop
  rw [runFrom_bind_ok (runFrom_get s)]
  cases s.loops.enter? n.id n.kind with
  | ok opened => rfl
  | error e => rfl

/-- a loop that is opened and reports its bounds -/
theorem openLoop_made (more : List (String × Json)) :
    Made c Outcome.Childless (do
      let frame ← enterLoop n
      return loopOutcome n frame more) :=
  (enterLoop_made c n).next fun _ => Made.pure (Outcome.childless_of_none rfl nofun)

theorem loopForEach_made : Made c Outcome.Childless n.loopForEach := by
  refine (Made.settings n _).next fun s => Made.vars.next fun vs => ?_
  split
  · exact Made.next (Made.pure trivial) fun items => openLoop_made c n _
  · exact Made.next (Made.pure trivial) fun items => openLoop_made c n _
  · exact Made.next (Made.misconfigured _ _) fun items => openLoop_made c n _

theorem loopWhile_made : Made c Outcome.Childless n.loopWhile :=
  (Made.settings n _).next fun _ => (Made.demand _ _).next fun _ => Made.vars.next
    fun _ => openLoop_made c n _

theorem loopDoWhile_made : Made c Outcome.Childless n.loopDoWhile :=
  (Made.settings n _).next fun _ => Made.vars.next fun _ => openLoop_made c n _

theorem countOf_made (v : Json) : Made c Unconditional (countOf n v) := by
  unfold countOf
  split
  · exact Made.pure trivial
  · exact Made.demand _ _
  · exact Made.demand _ _

theorem loopRepeat_made : Made c Outcome.Childless n.loopRepeat :=
  (Made.settings n _).next fun _ => Made.vars.next fun _ => (countOf_made c n _).next
    fun _ => openLoop_made c n _

theorem exitLoop_made : Made c Unconditional exitLoop :=
  Made.inner (fun vs ls => (.ok (ls.current?.map (·.loopId)), vs, ls.exit)) fun _ => rfl

theorem tickLoop_made : Made c Unconditional tickLoop :=
  Made.inner (fun vs ls => (.ok (), vs, ls.tick)) fun _ => rfl

theorem loopControl_made : Made c Outcome.Childless n.loopControl := by
  refine (Made.settings n _).next fun guard => Made.vars.next fun vs => ?_
  dsimp only
  split
  · split
    · exact (exitLoop_made c).next fun _ => Made.pure (Outcome.childless_of_none rfl nofun)
    · exact (tickLoop_made c).next fun _ => Made.pure
        (Outcome.childless_of_none rfl nofun)
  · exact Made.done _

/-! ### actions -/

theorem replyOutcome_childless (limit : Nat) (r : HttpReply) :
    (replyOutcome limit r).Childless := by
  unfold replyOutcome
  dsimp only
  split
  · exact Outcome.childless_of_none rfl nofun
  · exact Outcome.childless_of_none rfl nofun

theorem call_made (s : ActionSettings) (method : String) (body : Option Json) :
    Made c Outcome.Childless (call c n s method body) := by
  refine (Made.demand _ _).next fun url => Made.vars.next fun vs => (Made.info n _).next
    fun _ => ?_
  refine (Made.send _).next fun r => ?_
  cases r with
  | ok reply => exact Made.pure (replyOutcome_childless _ reply)
  | error e => exact Made.throw _ e

theorem action_made : Made c Outcome.Childless (n.action c) := by
  refine (Made.settings n _).next fun s => Made.vars.next fun vs => ?_
  split
  · exact call_made c n s _ _
  · exact call_made c n s _ _
  · exact (Made.demand _ _).next fun _ => Made.done _
  · exact Made.misconfigured _ _

/-! ### records -/

theorem recordSettings_made : Made c Unconditional n.recordSettings :=
  (Made.settings n _).next fun _ => (Made.demand _ _).next fun _ => Made.pure trivial

theorem lookupRecord_made : Made c Outcome.Childless n.lookupRecord := by
  refine (recordSettings_made c n).next fun s => Made.vars.next fun vs => ?_
  refine Made.next (Made.onStore (fun t => Store.core_find t _ _)
    fun t is => Store.find_withInstances t is _ _) fun records => ?_
  exact (Made.setVar? _ _).next fun _ => Made.done _

theorem createRecord_made : Made c Outcome.Childless (n.createRecord c) := by
  refine (recordSettings_made c n).next fun s => Made.vars.next fun vs => (Made.freshId).next
    fun id => ?_
  refine Made.next (Made.onStore (fun t => Store.core_insert t _ _ _)
    fun t is => Store.insert_withInstances t is _ _ _) fun recordId => ?_
  exact (Made.info n _).next fun _ => (Made.setVar? _ _).next fun _ => Made.done _

theorem updateRecord_made : Made c Outcome.Childless n.updateRecord := by
  refine (recordSettings_made c n).next fun s => Made.vars.next fun vs => ?_
  exact Made.next (Made.onStore (fun t => Store.core_update t _ _ _)
    fun t is => Store.update_withInstances t is _ _ _) fun updated => Made.done _

theorem deleteRecord_made : Made c Outcome.Childless n.deleteRecord := by
  refine (recordSettings_made c n).next fun s => Made.vars.next fun vs => ?_
  dsimp only
  split
  · exact Made.misconfigured _ _
  · exact Made.next (Made.onStore (fun t => Store.core_delete t _ _)
    fun t is => Store.delete_withInstances t is _ _) fun deleted => Made.done _

/-! ### data -/

theorem itemsOf_made (v : Json) : Made c Unconditional (itemsOf n v) := by
  unfold itemsOf
  split
  · exact Made.pure trivial
  · exact Made.pure trivial
  · exact Made.misconfigured _ _

theorem applyAll_made (fs : List String) (v : Json) : Made c Unconditional (applyAll n fs v) := by
  induction fs generalizing v with
  | nil => exact Made.pure trivial
  | cons f fs ih =>
    unfold applyAll
    split
    · exact ih _
    · exact Made.throw _ _

theorem transform_made : Made c Outcome.Childless n.transform :=
  (Made.settings n _).next fun _ => Made.vars.next fun _ => (applyAll_made c n _ _).next fun _ =>
    (Made.setVar? _ _).next fun _ => Made.done _

theorem filter_made : Made c Outcome.Childless n.filter :=
  (Made.settings n _).next fun _ => (Made.demand _ _).next fun _ => Made.vars.next fun _ =>
    (itemsOf_made c n _).next fun _ => (Made.setVar? _ _).next fun _ => Made.done _

theorem sort_made : Made c Outcome.Childless n.sort :=
  (Made.settings n _).next fun _ => Made.vars.next fun _ => (itemsOf_made c n _).next fun _ =>
    (Made.demand _ _).next fun _ => (Made.setVar? _ _).next fun _ => Made.done _

theorem aggregate_made : Made c Outcome.Childless n.aggregate :=
  (Made.settings n _).next fun _ => Made.vars.next fun _ => (itemsOf_made c n _).next fun _ =>
    (Made.demand _ _).next fun _ => (Made.setVar? _ _).next fun _ => Made.done _

theorem calculate_made : Made c Outcome.Childless n.calculate :=
  (Made.settings n _).next fun _ => (Made.demand _ _).next fun _ => Made.vars.next fun _ =>
    (Made.setVar _ _).next fun _ => Made.done _

/-! ### all kinds -/

/-- Every handler but that of a subprocess is made of steps, and waits for no child. -/
theorem handle_made (h : n.kind ≠ .subprocess) : Made c Outcome.Childless (n.handle c) := by
  unfold handle
  cases hk : n.kind with
  | subprocess => exact absurd hk h
  | start | finish | parallel | merge => exact Made.pure (Outcome.childless_of_none rfl nofun)
  | task => exact task_made c n
  | decision => exact decision_made c n
  | switch => exact switch_made c n
  | approval => exact approval_made c n
  | form => exact form_made c n
  | screen => exact screen_made c n
  | action => exact action_made c n
  | timer => exact timer_made c n
  | event => exact event_made c n
  | assignment => exact assignment_made c n
  | loopForEach => exact loopForEach_made c n
  | loopWhile => exact loopWhile_made c n
  | loopDoWhile => exact loopDoWhile_made c n
  | loopRepeat => exact loopRepeat_made c n
  | loopBreak | loopContinue => exact loopControl_made c n
  | lookupRecord => exact lookupRecord_made c n
  | createRecord => exact createRecord_made c n
  | updateRecord => exact updateRecord_made c n
  | deleteRecord => exact deleteRecord_made c n
  | transform => exact transform_made c n
  | filter => exact filter_made c n
  | sort => exact sort_made c n
  | aggregate => exact aggregate_made c n
  | calculate => exact calculate_made c n
  | unknown name => exact Made.throw _ _

/-- **Only a subprocess node touches instances**: any other node leaves them alone and waits for no
child. -/
theorem handle_apart (h : n.kind ≠ .subprocess) : Apart Outcome.Childless (n.handle c) :=
  (handle_made c n h).apart

end Node
end Workflows
