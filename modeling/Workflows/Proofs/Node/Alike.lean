import Workflows.Proofs.Node.Ran

/-!
# Worlds that differ in one record

* `Agrees`          a computation that does the same from any two states that are related
* `Steady`          a relation between worlds that the steps of handlers keep
* `SessionsOver`    sessions in related worlds
* `Alike`           worlds that differ in the record of one instance, and in what no run reads
* `SessionsAlike`   sessions in such worlds

Main statement: a node does the same in worlds that are alike, if its launcher does
(`runWithRetries_mirrors`).
-/

namespace Workflows

/-! ## two runs of a computation -/

/-- Two runs of an operation from related states have the same answer, and their states are related
again. -/
def Mirrors {σ α : Type} (R : σ → σ → Prop) (f : StateM σ α) : Prop :=
  ∀ s t, R s t → (f.run t).1 = (f.run s).1 ∧ R (f.run s).2 (f.run t).2

/-- the same for an operation that may fail, with a condition on its answers -/
def Agrees {ε σ α : Type} (R : σ → σ → Prop) (P : α → Prop) (x : ExceptT ε (StateM σ) α) : Prop :=
  ∀ s t, R s t → (runFrom x t).1 = (runFrom x s).1 ∧ R (runFrom x s).2 (runFrom x t).2 ∧
    ∀ a, (runFrom x s).1 = .ok a → P a

namespace Agrees
variable {ε σ α β : Type} {R : σ → σ → Prop}

theorem pure {P : α → Prop} {a : α} (h : P a) :
    Agrees R P (pure a : ExceptT ε (StateM σ) α) := by
  intro s t hst
  refine ⟨rfl, hst, fun b hb => ?_⟩
  cases hb
  exact h

theorem throw (P : α → Prop) (e : ε) : Agrees R P (throw e : ExceptT ε (StateM σ) α) :=
  fun _ _ hst => ⟨rfl, hst, fun _ hb => by cases hb⟩

theorem lift {f : StateM σ α} (h : Mirrors R f) :
    Agrees R Unconditional (liftM f : ExceptT ε (StateM σ) α) := by
  intro s t hst
  obtain ⟨hsame, hrelated⟩ := h s t hst
  rw [runFrom_lift, runFrom_lift, hsame]
  exact ⟨rfl, hrelated, fun _ _ => trivial⟩

theorem bind {Q : α → Prop} {P : β → Prop} {x : ExceptT ε (StateM σ) α}
    {f : α → ExceptT ε (StateM σ) β} (hx : Agrees R Q x) (hf : ∀ a, Q a → Agrees R P (f a)) :
    Agrees R P (x >>= f) := by
  intro s t hst
  obtain ⟨hsame, hrelated, hans⟩ := hx s t hst
  rw [runFrom_bind, runFrom_bind]
  rcases hs : runFrom x s with ⟨r, s'⟩
  rcases ht : runFrom x t with ⟨r', t'⟩
  rw [hs, ht] at hsame hrelated
  rw [hs] at hans
  cases hsame
  cases r with
  | ok a => exact hf a (hans a rfl) s' t' hrelated
  | error e => exact ⟨rfl, hrelated, fun b hb => by cases hb⟩

theorem next {P : β → Prop} {x : ExceptT ε (StateM σ) α} {f : α → ExceptT ε (StateM σ) β}
    (hx : Agrees R Unconditional x) (hf : ∀ a, Agrees R P (f a)) : Agrees R P (x >>= f) :=
  hx.bind fun a _ => hf a

end Agrees

/-! ## what handlers keep -/

/-- A relation between worlds that the steps of handlers keep, with the same answers in both. -/
structure Steady (env : Env) (R : World → World → Prop) : Prop where
  now : Mirrors R env.now
  freshId : Mirrors R env.freshId
  emit : ∀ id happening, Mirrors R (env.emit id happening)
  send : ∀ r, Mirrors R (env.send r)
  fromStore : ∀ {α : Type} {f : Store → α}, (∀ s is, f (s.withInstances is) = f s) →
    Mirrors R (World.fromStore f)
  onStore : ∀ {α : Type} {f : Store → α × Store}, (∀ s, (f s).2.core = s.core) →
    (∀ s is, f (s.withInstances is) = ((f s).1, (f s).2.withInstances is)) →
    Mirrors R (World.onStore f)

/-- sessions of one node in related worlds -/
structure SessionsOver (R : World → World → Prop) (s t : Session) : Prop where
  vars : t.vars = s.vars
  loops : t.loops = s.loops
  worlds : R s.world t.world

section
variable {R : World → World → Prop} {α : Type}

theorem NodeRun.onWorld_over {f : StateM World α} (h : Mirrors R f) :
    Agrees (SessionsOver R) Unconditional (NodeRun.onWorld f) := by
  intro s t hst
  obtain ⟨hsame, hworlds⟩ := h _ _ hst.worlds
  exact ⟨congrArg Except.ok hsame, ⟨hst.vars, hst.loops, hworlds⟩, fun _ _ => trivial⟩

/-- What is made of steps does the same in worlds whose relation the steps keep. -/
theorem NodeRun.Made.over {c : NodeContext} {P : α → Prop} {x : NodeRun α} (h : Made c P x)
    (hR : Steady c.env R) : Agrees (SessionsOver R) P x := by
  induction h with
  | pure h => exact Agrees.pure h
  | throw P e => exact Agrees.throw P e
  | bind _ _ hx hf => exact hx.bind hf
  | inner f h =>
    intro s t hst
    rw [h, h, hst.vars, hst.loops]
    exact ⟨rfl, ⟨rfl, rfl, hst.worlds⟩, fun _ _ => trivial⟩
  | now => exact onWorld_over hR.now
  | freshId => exact onWorld_over hR.freshId
  | message n m => exact onWorld_over (hR.emit _ _)
  | send r => exact onWorld_over (hR.send r)
  | fromStore h => exact onWorld_over (hR.fromStore h)
  | useStore hcore h => exact onWorld_over (hR.onStore hcore h)

/-- An attempt does the same in sessions in which its handler does. -/
theorem Node.attempt_mirrors_of {c : NodeContext} {n : Node} {S : Session → Session → Prop}
    {P : Outcome → Prop} (h : Agrees S P (n.handle c))
    (hS : ∀ {s t} (ls : LoopStack), S s t → S { s with loops := ls } { t with loops := ls }) :
    Mirrors S (n.attempt c) := by
  intro s t hst
  have hrun : ∀ s, (n.attempt c).run s =
      (outcomeOf (runFrom (n.handle c)
          { s with loops := { maxDepth := c.env.settings.maxLoopDepth } }).1,
        (runFrom (n.handle c)
          { s with loops := { maxDepth := c.env.settings.maxLoopDepth } }).2) :=
    fun s => execute_run c n _
  obtain ⟨hsame, hrelated, _⟩ := h _ _ (hS { maxDepth := c.env.settings.maxLoopDepth } hst)
  rw [hrun, hrun, hsame]
  exact ⟨rfl, hrelated⟩

end

/-! ## worlds -/

/-- Worlds that differ in the record of one instance, which has not ended in either, and in what no
run reads: in events, locks and refused writes. -/
structure Alike (names : Nat → String) (i j : Instance) (w w' : World) : Prop where
  left : w.store.getInstance? i.id = some i
  right : w'.store.getInstance? i.id = some j
  others : ∀ id, id ≠ i.id → w'.store.getInstance? id = w.store.getInstance? id
  rest : w'.store = w.store.withInstances w'.store.instances
  ids : w'.ids = w.ids
  ticks : w'.ticks = w.ticks
  sent : w'.sent.size = w.sent.size
  /-- the id of the record is not generated again -/
  unnamed : ∀ n, w.ids ≤ n → names n ≠ i.id
  leftAlive : i.status.isTerminal = false
  rightAlive : j.status.isTerminal = false

/-- what a run can read of a world -/
structure World.Reads (w v : World) : Prop where
  store : v.store = w.store := by rfl
  ids : v.ids = w.ids := by rfl
  ticks : v.ticks = w.ticks := by rfl
  sent : v.sent.size = w.sent.size := by rfl

namespace Alike
variable {names : Nat → String} {i j : Instance} {w w' v v' : World}

theorem reads (h : Alike names i j w w') (hv : w.Reads v) (hv' : w'.Reads v') :
    Alike names i j v v' := by
  refine ⟨?_, ?_, ?_, ?_, ?_, ?_, ?_, ?_, h.leftAlive, h.rightAlive⟩
  · rw [hv.store]
    exact h.left
  · rw [hv'.store]
    exact h.right
  · rw [hv.store, hv'.store]
    exact h.others
  · rw [hv.store, hv'.store]
    exact h.rest
  · rw [hv.ids, hv'.ids, h.ids]
  · rw [hv.ticks, hv'.ticks, h.ticks]
  · rw [hv.sent, hv'.sent, h.sent]
  · rw [hv.ids]
    exact h.unnamed

theorem getLink? (h : Alike names i j w w') (id : String) :
    w'.store.getLink? id = w.store.getLink? id := by
  rw [h.rest]
  rfl

/-- a change of the store that does not depend on instances -/
theorem onStore {α : Type} (h : Alike names i j w w') {f : Store → α × Store}
    (hcore : ∀ s, (f s).2.core = s.core)
    (hf : ∀ s is, f (s.withInstances is) = ((f s).1, (f s).2.withInstances is)) :
    (f w'.store).1 = (f w.store).1 ∧
      Alike names i j { w with store := (f w.store).2 } { w' with store := (f w'.store).2 } := by
  have hrun : f w'.store =
      ((f w.store).1, (f w.store).2.withInstances w'.store.instances) := by
    conv => lhs; rw [h.rest]
    exact hf _ _
  have hinstances : (f w'.store).2.instances = w'.store.instances :=
    congrArg Core.instances (hcore w'.store)
  refine ⟨by rw [hrun], ?_, ?_, fun id hid => ?_, ?_, h.ids, h.ticks, h.sent, h.unnamed,
    h.leftAlive, h.rightAlive⟩
  · exact (Store.getInstance?_of_core (hcore _) _).trans h.left
  · exact (Store.getInstance?_of_core (hcore _) _).trans h.right
  · show (f w'.store).2.getInstance? id = (f w.store).2.getInstance? id
    rw [Store.getInstance?_of_core (hcore _), Store.getInstance?_of_core (hcore _)]
    exact h.others id hid
  · show (f w'.store).2 = (f w.store).2.withInstances (f w'.store).2.instances
    rw [hinstances]
    exact congrArg Prod.snd hrun

theorem freshId (h : Alike names i j w w') :
    Alike names i j { w with ids := w.ids + 1 } { w' with ids := w'.ids + 1 } :=
  { h with
    ids := congrArg (· + 1) h.ids
    unnamed := fun n hn => h.unnamed n (Nat.le_of_succ_le hn) }

theorem tick (h : Alike names i j w w') :
    Alike names i j { w with ticks := w.ticks + 1 } { w' with ticks := w'.ticks + 1 } :=
  { h with ticks := congrArg (· + 1) h.ticks }

theorem send (h : Alike names i j w w') (r : HttpRequest) :
    Alike names i j { w with sent := w.sent.push r } { w' with sent := w'.sent.push r } := by
  refine { h with sent := ?_ }
  show (w'.sent.push r).size = (w.sent.push r).size
  rw [Array.size_push, Array.size_push, h.sent]

theorem link (h : Alike names i j w w') (l : ChildLink) :
    Alike names i j (w.link l) (w'.link l) := by
  refine { h with rest := ?_ }
  show w'.store.insertLink l = _
  rw [h.rest]
  rfl

theorem put (h : Alike names i j w w') {k : Instance} (hk : k.id ≠ i.id) :
    Alike names i j (w.put k) (w'.put k) := by
  refine { h with left := ?_, right := ?_, others := fun id hid => ?_, rest := ?_ }
  · rw [World.getInstance?_put_of_ne hk.symm]
    exact h.left
  · rw [World.getInstance?_put_of_ne hk.symm]
    exact h.right
  · rw [World.getInstance?_put, World.getInstance?_put, h.others id hid]
  · show w'.store.insertInstance k = (w.store.insertInstance k).withInstances _
    rw [h.rest]
    rfl

theorem putLeft (h : Alike names i j w w') {k : Instance} (hk : k.id = i.id)
    (ha : k.status.isTerminal = false) : Alike names k j (w.put k) w' := by
  refine ⟨World.getInstance?_put_self rfl, hk ▸ h.right, fun id hid => ?_, ?_, h.ids, h.ticks,
    h.sent, ?_, ha, h.rightAlive⟩
  · rw [World.getInstance?_put_of_ne hid]
    exact h.others id (hk ▸ hid)
  · show w'.store = (w.store.insertInstance k).withInstances _
    rw [h.rest]
    rfl
  · rw [hk]
    exact h.unnamed

theorem putRight (h : Alike names i j w w') {l : Instance} (hl : l.id = i.id)
    (ha : l.status.isTerminal = false) : Alike names i l w (w'.put l) := by
  refine { h with right := World.getInstance?_put_self hl, others := fun id hid => ?_, rest := ?_,
                  rightAlive := ha }
  · rw [World.getInstance?_put_of_ne (hl ▸ hid)]
    exact h.others id hid
  · show w'.store.insertInstance l = w.store.withInstances _
    rw [h.rest]
    rfl

theorem putOwn (h : Alike names i j w w') {k l : Instance} (hk : k.id = i.id) (hl : l.id = i.id)
    (hka : k.status.isTerminal = false) (hla : l.status.isTerminal = false) :
    Alike names k l (w.put k) (w'.put l) :=
  (h.putLeft hk hka).putRight (hl.trans hk.symm) hla

end Alike

/-! ## sessions -/

/-- sessions of one node in worlds that are alike -/
structure SessionsAlike (names : Nat → String) (i j : Instance) (s t : Session) : Prop where
  vars : t.vars = s.vars
  loops : t.loops = s.loops
  worlds : Alike names i j s.world t.world

section
variable {names : Nat → String} {i j : Instance} {α : Type}

theorem SessionsAlike.eq_over : SessionsAlike names i j = SessionsOver (Alike names i j) := by
  funext s t
  exact propext ⟨fun h => ⟨h.vars, h.loops, h.worlds⟩, fun h => ⟨h.vars, h.loops, h.worlds⟩⟩

theorem NodeRun.agrees_onWorld {f : StateM World α} (h : Mirrors (Alike names i j) f) :
    Agrees (SessionsAlike names i j) Unconditional (NodeRun.onWorld f) := by
  rw [SessionsAlike.eq_over]
  exact NodeRun.onWorld_over h

/-- The steps of handlers do not depend on a record. -/
theorem Alike.steady (env : Env) : Steady env (Alike env.idName i j) where
  now w w' h := by
    refine ⟨?_, h⟩
    show env.epoch.addNanos w'.ticks = env.epoch.addNanos w.ticks
    rw [h.ticks]
  freshId w w' h := ⟨congrArg env.idName h.ids, h.freshId⟩
  emit id happening w w' h := ⟨rfl, h.reads {} {}⟩
  send r w w' h := by
    refine ⟨?_, h.send r⟩
    show env.reply w'.sent.size r = env.reply w.sent.size r
    rw [h.sent]
  fromStore {α f} hf w w' h := by
    refine ⟨?_, h⟩
    show f w'.store = f w.store
    rw [h.rest, hf]
  onStore hcore hf w w' h := h.onStore hcore hf

/-- What is made of steps does not depend on a record. -/
theorem NodeRun.Made.agrees {c : NodeContext} {P : α → Prop} {x : NodeRun α} (h : Made c P x) :
    Agrees (SessionsAlike c.env.idName i j) P x := by
  rw [SessionsAlike.eq_over]
  exact h.over (Alike.steady c.env)

end

/-! ## nodes -/

namespace Node
open NodeRun
variable {i j : Instance}

variable {c : NodeContext} (n : Node)

theorem launch_agrees {launcher : Launcher}
    (hl : ∀ r, Agrees (Alike c.env.idName i j) Unconditional (launcher r)) (r : StartRequest) :
    Agrees (SessionsAlike c.env.idName i j) Unconditional (launch launcher r) := by
  have hnote : Agrees (SessionsAlike c.env.idName i j) Unconditional
      (modify fun s => { s with launched := s.launched.push r } : NodeRun PUnit) :=
    fun s t hst => ⟨rfl, ⟨hst.vars, hst.loops, hst.worlds⟩, fun _ _ => trivial⟩
  have hworld : Agrees (SessionsAlike c.env.idName i j) Unconditional
      (onWorld (launcher r).run) :=
    agrees_onWorld fun w w' h => ⟨(hl r w w' h).1, (hl r w w' h).2.1⟩
  refine hnote.next fun _ => hworld.next fun answer => ?_
  cases answer with
  | ok id => exact Agrees.pure trivial
  | error e => exact Agrees.throw _ _

theorem startChild_agrees {launcher : Launcher}
    (hl : ∀ r, Agrees (Alike c.env.idName i j) Unconditional (launcher r)) :
    Agrees (SessionsAlike c.env.idName i j) Unconditional (startChild c launcher n) := by
  unfold startChild
  refine (Made.settings n _).agrees.next fun settings => ?_
  refine (Made.demand _ _).agrees.next fun workflowId => ?_
  refine (childLevel_made c _ _).agrees.bind fun level _ => ?_
  refine (validate_made c _ _).agrees.next fun report => ?_
  refine (warnAll_made c n _).agrees.next fun _ => ?_
  split
  · refine Made.vars.agrees.next fun vs => (launch_agrees hl _).next fun childId => ?_
    have htick : Agrees (SessionsAlike c.env.idName i j) Unconditional (onWorld World.tick) :=
      agrees_onWorld fun w w' h => ⟨rfl, h.tick⟩
    refine htick.next fun _ => Made.now.agrees.next fun createdAt => ?_
    have hlink : ∀ l, Agrees (SessionsAlike c.env.idName i j) Unconditional
        (NodeRun.changeStore (·.insertLink l)) :=
      fun l => agrees_onWorld fun w w' h => ⟨rfl, h.link l⟩
    exact (hlink _).next fun _ => Agrees.pure trivial
  · exact Agrees.throw _ _

theorem subprocess_agrees (hl : ∀ launcher, c.launcher = some launcher →
      ∀ r, Agrees (Alike c.env.idName i j) Unconditional (launcher r)) :
    Agrees (SessionsAlike c.env.idName i j) Unconditional (n.subprocess c) := by
  unfold subprocess
  cases hc : c.launcher with
  | none => exact Agrees.throw _ _
  | some launcher =>
    refine (startChild_agrees n (hl launcher hc)).next fun link => ?_
    exact (Made.info n _).agrees.next fun _ => Agrees.pure trivial

/-- **A handler does not depend on the record of an instance**, if its launcher does not. -/
theorem handle_agrees (hl : ∀ launcher, c.launcher = some launcher →
      ∀ r, Agrees (Alike c.env.idName i j) Unconditional (launcher r)) :
    ∃ P, Agrees (SessionsAlike c.env.idName i j) P (n.handle c) := by
  by_cases hk : n.kind = .subprocess
  · have hh : n.handle c = n.subprocess c := by rw [handle, hk]
    rw [hh]
    exact ⟨_, subprocess_agrees n hl⟩
  · exact ⟨_, (handle_made c n hk).agrees⟩

theorem attempt_mirrors (hl : ∀ launcher, c.launcher = some launcher →
      ∀ r, Agrees (Alike c.env.idName i j) Unconditional (launcher r)) :
    Mirrors (SessionsAlike c.env.idName i j) (n.attempt c) := by
  obtain ⟨P, hhandle⟩ := handle_agrees n hl
  exact attempt_mirrors_of hhandle fun ls hst => ⟨hst.vars, rfl, hst.worlds⟩

theorem noteRetry_mirrors (number : Nat) (error : String) :
    Mirrors (SessionsAlike c.env.idName i j) (n.noteRetry c number error) :=
  fun _ _ hst => ⟨rfl, hst.vars, hst.loops,
    hst.worlds.reads {} {}⟩

end Node

theorem retrying_mirrors {σ : Type} {R : σ → σ → Prop} {attempt : StateM σ Outcome}
    {note : Nat → String → StateM σ Unit} (ha : Mirrors R attempt)
    (hn : ∀ number error, Mirrors R (note number error)) (left retries : Nat) :
    Mirrors R (retrying attempt note left retries) := by
  induction left generalizing retries with
  | zero =>
    intro s t hst
    obtain ⟨hsame, hrelated⟩ := ha s t hst
    rw [Node.retrying_zero_run, Node.retrying_zero_run, hsame]
    exact ⟨rfl, hrelated⟩
  | succ left ih =>
    intro s t hst
    obtain ⟨hsame, hrelated⟩ := ha s t hst
    rw [Node.retrying_succ_run, Node.retrying_succ_run, hsame]
    cases (attempt.run s).1.transientError? with
    | some error => exact ih (retries + 1) _ _ (hn _ _ _ _ hrelated).2
    | none => exact ⟨rfl, hrelated⟩

/-- **A node does the same beside any record**, its repetitions included. -/
theorem Node.runWithRetries_mirrors {c : NodeContext} {i j : Instance} (n : Node)
    (hl : ∀ launcher, c.launcher = some launcher →
      ∀ r, Agrees (Alike c.env.idName i j) Unconditional (launcher r)) :
    Mirrors (SessionsAlike c.env.idName i j) (n.runWithRetries c) :=
  retrying_mirrors (n.attempt_mirrors hl) n.noteRetry_mirrors _ _

end Workflows
