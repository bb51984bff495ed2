import Workflows.Proofs.Engine.Arrival
import Workflows.Proofs.Engine.Downfall
import Workflows.Proofs.Engine.Handover

/-!
# Wake-ups

A parent reads its child once before it waits, and a client that has ended the child reads the
parent once.  Between the two readings of the parent's call nothing keeps the client out.

* `Ended`            a child that is stored as it has ended
* `Invariant`        what both calls know about the store, and what has become of the wake-up
* `afterNode_steps`  the engine behind a node takes steps of the parent
* `call_steps`       a whole call of the engine on the child takes steps of the client
* `Forgotten`        a parent that waits for a child that has ended

Main statements: when both calls have returned, the parent is forgotten exactly where the client has
read it between its look at the child and its wait (`forgotten_iff_overlooked`).  Every handover to
a client that cancels can end so (`Begins.forgets`).
-/

namespace Workflows.Engine.Handover
variable {env : Env} {h : Handover} {w₀ w w' : World} {i j p child : Instance} {link : ChildLink}
  {pa pa' : ParentAt} {c c' : ClientAt} {o o' : Bool} {s s' : State} {stage : Stage}

def Ended (h : Handover) (child : Instance) (w : World) : Prop :=
  Has h.link.childId child w ∧ child.status.isTerminal = true

def HasLink (h : Handover) (w : World) : Prop :=
  w.store.getLink? h.link.childId = some h.link

/-- what holds of the store while the parent is at a stage -/
def StageKnows (h : Handover) (w : World) : Stage → Prop
  | .insertLink => w.store.getLink? h.link.childId = none
  | .readLink child => h.HasLink w ∧ h.Ended child w
  | .takeOver child link => h.HasLink w ∧ h.Ended child w ∧ link = h.link
  | _ => h.HasLink w

def ParentKnows (h : Handover) (p : Instance) (w : World) : ParentAt → Prop
  | .behind stage i => Has p.id i w ∧ i.id = p.id ∧ i.status = .running ∧ h.StageKnows w stage
  | .walking _ => h.HasLink w ∧ Past p.id h.link.childId w.store
  | .returned => h.HasLink w

def ClientKnows (h : Handover) (p : Instance) (w : World) : ClientAt → Prop
  | .calling => ∃ child, Has h.link.childId child w ∧ child.status.isTerminal = false
  | .walking fs => Outside p.id fs
  | .telling .readLink child => h.Ended child w
  | .telling (.readParent link) child => h.Ended child w ∧ h.HasLink w ∧ link = h.link
  | .telling (.wake link) child => h.Ended child w ∧ h.HasLink w ∧ link = h.link
  | .returned => True

/-- What both calls know about the store, and what has become of the wake-up. -/
structure Invariant (env : Env) (h : Handover) (w₀ : World) (p : Instance) (s : State) : Prop where
  orderly : Orderly env.idName s.world
  kept : Kept w₀.store s.world.store
  parent : h.ParentKnows p s.world s.parent
  client : h.ClientKnows p s.world s.client
  told : s.client = .returned → s.overlooked = false → (∃ child, h.Ended child s.world) →
    s.parent.isToWait = false ∧ Past p.id h.link.childId s.world.store
  overlooked : s.overlooked = true → s.client = .returned ∧ (∃ child, h.Ended child s.world) ∧
    (s.parent.isToWait = true ∨
      s.parent = .returned ∧ ∃ i, Has p.id i s.world ∧ ParksOn i h.link.childId)

/-! ## what is known, and writes -/

theorem Ended.unique (hc : h.Ended child w) {child' : Instance}
    (hc' : Has h.link.childId child' w) : child' = child :=
  Option.some.inj (hc'.symm.trans hc.1)

theorem Ended.of_eq (hc : h.Ended child w)
    (he : w'.store.getInstance? h.link.childId = w.store.getInstance? h.link.childId) :
    h.Ended child w' :=
  ⟨he.trans hc.1, hc.2⟩

/-- the client and a step of the parent -/
theorem ClientKnows.after (hc : h.ClientKnows p w c)
    (he : w'.store.getInstance? h.link.childId = w.store.getInstance? h.link.childId)
    (hl : h.HasLink w → h.HasLink w') : h.ClientKnows p w' c := by
  cases c with
  | calling =>
    obtain ⟨child, hchild, ht⟩ := hc
    exact ⟨child, he.trans hchild, ht⟩
  | walking fs => exact hc
  | telling stage child =>
    cases stage with
    | readLink => exact Ended.of_eq hc he
    | readParent link => exact ⟨hc.1.of_eq he, hl hc.2.1, hc.2.2⟩
    | wake link => exact ⟨hc.1.of_eq he, hl hc.2.1, hc.2.2⟩
  | returned => trivial

/-- the parent and a step of the client -/
theorem ParentKnows.after (hp : h.ParentKnows p w pa) (hi : ∀ i, Has p.id i w → Has p.id i w')
    (he : ∀ child, h.Ended child w → h.Ended child w')
    (hl : w'.store.getLink? h.link.childId = w.store.getLink? h.link.childId)
    (hpast : Past p.id h.link.childId w.store → Past p.id h.link.childId w'.store) :
    h.ParentKnows p w' pa := by
  have hlink : h.HasLink w → h.HasLink w' := fun hj => hl.trans hj
  cases pa with
  | behind stage i =>
    obtain ⟨hstored, hid, hr, hknows⟩ := hp
    refine ⟨hi i hstored, hid, hr, ?_⟩
    cases stage with
    | insertLink => exact hl.trans hknows
    | record => exact hlink hknows
    | readChild => exact hlink hknows
    | readLink child => exact ⟨hlink hknows.1, he child hknows.2⟩
    | takeOver child link => exact ⟨hlink hknows.1, he child hknows.2.1, hknows.2.2⟩
    | wait => exact hlink hknows
  | walking fs => exact ⟨hlink hp.1, hpast hp.2⟩
  | returned => exact hlink hp

/-! ## from the beginning -/

theorem Begins.invariant (hb : h.Begins env w p) :
    Invariant env h w p ⟨w, .behind .insertLink p, .calling, false⟩ := by
  refine ⟨hb.orderly, Kept.refl _, ⟨hb.parent, rfl, hb.running, hb.unlinked⟩, ?_, nofun, nofun⟩
  obtain ⟨child, hchild, hparked, _⟩ := hb.child
  exact ⟨child, hchild, not_terminal_of_parked hparked⟩

theorem Begins.distinct (hb : h.Begins env w p) : h.link.childId ≠ p.id := by
  intro he
  obtain ⟨child, hchild, hparked, _⟩ := hb.child
  rw [he] at hchild
  cases Option.some.inj (hchild.symm.trans hb.parent)
  rw [hb.running] at hparked
  cases hparked

theorem Begins.subject (hb : h.Begins env w p) : h.act.subject? = some h.link.childId := by
  rcases hb.act with hact | ⟨nodeId, data, hact⟩
  · rw [hact]
    rfl
  · rw [hact]
    rfl

theorem Invariant.parentId (hs : Invariant env h w₀ p s) (hb : h.Begins env w₀ p)
    (hc : Has h.link.childId child s.world) : child.parentId = some p.id := by
  obtain ⟨k, hk, _, hparent⟩ := hb.child
  obtain ⟨k', hk', hsame⟩ := hs.kept.instances _ _ hk
  cases Option.some.inj (hk'.symm.trans hc)
  exact hsame.parentId.trans hparent

/-! ## steps of the parent -/

theorem isToWait_behind : (ParentAt.behind stage i).isToWait = true ↔ stage = .wait := by
  cases stage <;> simp [ParentAt.isToWait]

theorem Invariant.parentStep (hs : Invariant env h w₀ p ⟨w, pa, c, o⟩) (hpa : pa ≠ .returned)
    (hw : Writes env.idName env.settings.maxNestingLevel w w')
    (he : w'.store.getInstance? h.link.childId = w.store.getInstance? h.link.childId)
    (hp : h.ParentKnows p w' pa')
    (htold : pa.isToWait = false → (∃ child, h.Ended child w) →
      Past p.id h.link.childId w.store →
      pa'.isToWait = false ∧ Past p.id h.link.childId w'.store)
    (hover : pa.isToWait = true →
      pa' = .returned ∧ ∃ i, Has p.id i w' ∧ ParksOn i h.link.childId) :
    Invariant env h w₀ p ⟨w', pa', c, o⟩ := by
  refine ⟨hw.orderly hs.orderly, hs.kept.trans hw.kept, hp, hs.client.after he hw.getLink?, ?_, ?_⟩
  · rintro hc ho ⟨child, hchild⟩
    have hchild' : h.Ended child w := hchild.of_eq he.symm
    obtain ⟨hnot, hpast⟩ := hs.told hc ho ⟨child, hchild'⟩
    exact htold hnot ⟨child, hchild'⟩ hpast
  · intro ho
    obtain ⟨hc, ⟨child, hchild⟩, hwaits | ⟨hret, _⟩⟩ := hs.overlooked ho
    · exact ⟨hc, ⟨child, hchild.of_eq he⟩, .inr (hover hwaits)⟩
    · exact absurd hret hpa

/-- the parent reads, and goes on to another stage -/
theorem Invariant.parentReads (hs : Invariant env h w₀ p ⟨w, .behind stage i, c, o⟩)
    {stage' : Stage} (hstage : stage ≠ .wait) (hk : h.StageKnows w stage')
    (hnot : (∃ child, h.Ended child w) → stage' ≠ .wait) :
    Invariant env h w₀ p ⟨w, .behind stage' i, c, o⟩ := by
  obtain ⟨hstored, hid, hr, _⟩ := hs.parent
  refine hs.parentStep nofun (.quiet (Quiet.refl w)) rfl ⟨hstored, hid, hr, hk⟩
    (fun _ hended hpast => ⟨?_, hpast⟩) fun hw => absurd (isToWait_behind.mp hw) hstage
  exact Bool.eq_false_iff.mpr fun hw => hnot hended (isToWait_behind.mp hw)

/-- the parent writes its record -/
theorem Invariant.parentWrites (hs : Invariant env h w₀ p ⟨w, .behind stage i, c, o⟩)
    (hb : h.Begins env w₀ p) (ho : i.SameOrigin j) (hstore : w'.store = (w.put j).store)
    (hids : w'.ids = w.ids) (hrefusals : w'.refusals = w.refusals)
    (hp : h.ParentKnows p w' pa') (hnot : pa'.isToWait = false)
    (hwaits : stage = .wait → pa' = .returned)
    (hparks : stage = .wait ↔ ParksOn j h.link.childId) :
    Invariant env h w₀ p ⟨w', pa', c, o⟩ := by
  obtain ⟨hstored, hid, hr, _⟩ := hs.parent
  have hi : Has i.id i w := hid ▸ hstored
  refine hs.parentStep nofun (.record hi ho hstore hids hrefusals) ?_ hp (fun hw _ hpast => ?_)
    fun hw => ?_
  · rw [hstore]
    exact World.getInstance?_put_of_ne fun he => hb.distinct (he.trans (ho.id.trans hid))
  · rw [hstore]
    refine ⟨hnot, hpast.put hi (hr ▸ rfl) ho.id fun hparked => ?_⟩
    rw [isToWait_behind.mpr (hparks.mpr hparked)] at hw
    cases hw
  · have hstage := isToWait_behind.mp hw
    refine ⟨hwaits hstage, j, ?_, hparks.mp hstage⟩
    unfold Has
    rw [hstore]
    exact World.getInstance?_put_self (ho.id.trans hid)

theorem behind_record (hi : Has i.id i w) : h.behind env .record i w =
    (w.put ((recordStep i h.node h.outcome h.vars h.startedAt h.completedAt).written (env.time w)),
      .behind .readChild ((recordStep i h.node h.outcome h.vars h.startedAt
        h.completedAt).written (env.time w))) := by
  have hrun := runFrom_persist (i := recordStep i h.node h.outcome h.vars h.startedAt
    h.completedAt) env hi rfl
  simp only [behind, hrun]

theorem runFrom_taken_completed (hi : Has i.id i w) (hn : link.parentNodeId = h.node.id)
    (hc : child.status = .completed) : runFrom (h.taken env i child link) w =
      (.ok (some ((withOutputs i child link).written (env.time w))),
        w.put ((withOutputs i child link).written (env.time w))) := by
  have hstored : w.store.getInstance? (withOutputs i child link).id = some i := by
    rw [(sameOrigin_withOutputs i child link).id]
    exact hi
  have hrun := runFrom_persist env hstored
    (rememberChild_version i child link.parentNodeId).symm
  unfold taken
  rw [runFrom_bind_ok (runFrom_applyChild_completed env i hn hc w)]
  exact runFrom_bind_ok hrun _

theorem behind_takeOver_completed (hi : Has i.id i w) (hn : link.parentNodeId = h.node.id)
    (hc : child.status = .completed) : h.behind env (.takeOver child link) i w =
      (w.put ((withOutputs i child link).written (env.time w)),
        .walking (⟨i.id, h.definition⟩ :: h.rest)) := by
  have hid : ((withOutputs i child link).written (env.time w)).id = i.id :=
    (sameOrigin_withOutputs i child link).id
  simp only [behind, runFrom_taken_completed hi hn hc, hid]

theorem runFrom_taken_failed (hi : Has i.id i w) (hc : child.status ≠ .completed) :
    runFrom (h.taken env i child link) w =
      (.ok none, w.announce ((failedWith i child link (env.time w)).written (env.time w))
        (env.time w)) := by
  unfold taken
  rw [runFrom_bind_ok (runFrom_applyChild_failed env hi hc)]
  rfl

theorem Begins.nodeId (hb : h.Begins env w p) : h.link.parentNodeId = h.node.id :=
  (Definition.findNode?_id hb.node).symm

theorem Begins.readsChild (hb : h.Begins env w₀ p) (hc : Has h.link.childId child w) :
    (h.outcome.wait.bind fun wait => w.store.getInstance? wait.id) = some child := by
  rw [hb.wait]
  exact hc

theorem Begins.waitsForChild (hb : h.Begins env w₀ p) (hs : i.status = .waiting)
    (hw : i.waitingFor = h.outcome.wait) : ParksOn i h.link.childId :=
  ⟨by rw [hs]; rfl, _, hw.trans hb.wait, rfl, rfl⟩

/-- what the parent does behind the launch -/
theorem Invariant.behind (hs : Invariant env h w₀ p ⟨w, .behind stage i, c, o⟩)
    (hb : h.Begins env w₀ p) :
    Invariant env h w₀ p ⟨(h.behind env stage i w).1, (h.behind env stage i w).2, c, o⟩ := by
  obtain ⟨hstored, hid, hrun, hknows⟩ := id hs.parent
  have hi : Has i.id i w := hid ▸ hstored
  have hwritten : ∀ {j : Instance}, i.SameOrigin j → Has p.id j (w.put j) :=
    fun ho => World.getInstance?_put_self (ho.id.trans hid)
  obtain ⟨_, hchild₀, _⟩ := hb.child
  obtain ⟨child, hchild, _⟩ := hs.kept.instances _ _ hchild₀
  -- a stage reads, and then only what the call knows changes, or it writes the record
  cases stage with
  | insertLink =>
    refine hs.parentStep nofun (.link hchild hknows) rfl ⟨hstored, hid, hrun, ?_⟩
      (fun _ _ hp => ⟨rfl, hp.child, hp.parent⟩) nofun
    exact (World.getLink?_link w h.link _).trans (if_pos rfl)
  | record =>
    rw [behind_record hi]
    have ho := (sameOrigin_recordStep i h.node h.outcome h.vars h.startedAt
      h.completedAt).written (env.time w)
    exact hs.parentWrites hb ho rfl rfl rfl ⟨hwritten ho, ho.id.trans hid, hrun, hknows⟩ rfl nofun
      ⟨nofun, fun hp => absurd hp (not_parksOn_of_running hrun)⟩
  | readChild =>
    simp only [Handover.behind, hb.readsChild hchild]
    by_cases ht : child.status.isTerminal = true
    · rw [if_pos ht]
      exact hs.parentReads nofun ⟨hknows, hchild, ht⟩ fun _ => nofun
    · -- the parent is going to wait, so nothing may have been told yet: the child has not ended
      rw [if_neg ht]
      refine hs.parentReads nofun hknows fun ⟨child', hended⟩ => ?_
      exact absurd (hended.unique hchild ▸ hended.2) ht
  | readLink child =>
    obtain ⟨hlink, hended⟩ := hknows
    have hread : w.store.getLink? child.id = some h.link := by
      rw [hs.orderly.keyed _ _ hended.1]
      exact hlink
    simp only [Handover.behind, hread]
    exact hs.parentReads nofun ⟨hlink, hended, rfl⟩ fun _ => nofun
  | takeOver child link =>
    obtain ⟨hlink, hended, rfl⟩ := hknows
    by_cases hc : child.status = .completed
    · rw [behind_takeOver_completed hi hb.nodeId hc]
      have ho := (sameOrigin_withOutputs i child h.link).written (env.time w)
      have hr : ((withOutputs i child h.link).written (env.time w)).status = .running :=
        (rememberChild_status i child h.link.parentNodeId).trans hrun
      generalize (withOutputs i child h.link).written (env.time w) = j at ho hr ⊢
      refine hs.parentWrites hb ho rfl rfl rfl ⟨hlink, ⟨child, ?_, hended.2⟩, _, hwritten ho,
        not_parksOn_of_running hr⟩ rfl nofun
        ⟨nofun, fun hp => absurd hp (not_parksOn_of_running hr)⟩
      exact Has.put_of_ne hended.1 fun he => hb.distinct (he.trans (ho.id.trans hid))
    · simp only [Handover.behind, runFrom_taken_failed hi hc]
      exact hs.parentWrites hb ((sameOrigin_failedWith i child h.link _).written (env.time w)) rfl
        rfl rfl hlink rfl nofun ⟨nofun, fun hp => absurd hp (not_parksOn_of_terminal rfl)⟩
  | wait =>
    -- only here does the parent come to wait for the child
    simp only [Handover.behind, runFrom_park env hi]
    have ho : i.SameOrigin (({ i.setStatus .waiting (env.time w) with
      waitingFor := h.outcome.wait } : Instance).written (env.time w)) :=
      ⟨rfl, rfl, rfl, rfl, rfl, rfl, rfl⟩
    exact hs.parentWrites hb ho rfl rfl rfl hknows rfl (fun _ => rfl)
      ⟨fun _ => hb.waitsForChild rfl rfl, fun _ => rfl⟩

theorem Invariant.walk {fs fs' : List Frame}
    (hs : Invariant env h w₀ p ⟨w, .walking fs, c, o⟩)
    (hm : Move env.idName env.settings.maxNestingLevel ⟨fs, w⟩ ⟨fs', w'⟩) :
    Invariant env h w₀ p ⟨w', .walking fs', c, o⟩ := by
  obtain ⟨hlink, hpast⟩ := hs.parent
  obtain ⟨child, hchild, ht⟩ := hpast.child
  have hafter : Past p.id h.link.childId w'.store := hm.past hpast
  refine hs.parentStep nofun hm.writes ?_ ⟨hm.writes.getLink? hlink, hafter⟩
    (fun _ _ _ => ⟨rfl, hafter⟩) nofun
  exact (hm.has_resting (ne_of_terminal ht rfl) hchild).trans hchild.symm

theorem Invariant.leave {fs : List Frame} (hs : Invariant env h w₀ p ⟨w, .walking fs, c, o⟩) :
    Invariant env h w₀ p ⟨w, .returned, c, o⟩ :=
  hs.parentStep nofun (.quiet (Quiet.refl w)) rfl hs.parent.1 (fun _ _ hp => ⟨rfl, hp⟩) nofun

/-! ## steps of the client -/

theorem Invariant.not_overlooked (hs : Invariant env h w₀ p s) (hc : s.client ≠ .returned) :
    s.overlooked = false :=
  Bool.eq_false_iff.mpr fun ho => hc (hs.overlooked ho).1

/-- a step of the client, which has not returned -/
theorem Invariant.clientStep (hs : Invariant env h w₀ p ⟨w, pa, c, o⟩) (hc : c ≠ .returned)
    (ho : Orderly env.idName w') (hk : Kept w.store w'.store) (hp : h.ParentKnows p w' pa)
    (hc' : h.ClientKnows p w' c')
    (htold : c' = .returned → (∃ child, h.Ended child w') →
      pa.isToWait = false ∧ Past p.id h.link.childId w'.store) :
    Invariant env h w₀ p ⟨w', pa, c', o⟩ := by
  have hnot : o = false := hs.not_overlooked hc
  subst hnot
  exact ⟨ho, hs.kept.trans hk, hp, hc', fun hret _ hended => htold hret hended, nofun⟩

theorem Invariant.quiet (hs : Invariant env h w₀ p s) (hq : Quiet s.world w') :
    Invariant env h w₀ p { s with world := w' } := by
  have hw : Writes env.idName env.settings.maxNestingLevel s.world w' := .quiet hq
  have hended : ∀ child, h.Ended child w' → h.Ended child s.world :=
    fun child hc => hc.of_eq (hq.getInstance? _).symm
  refine ⟨hw.orderly hs.orderly, hs.kept.trans hw.kept, ?_,
    hs.client.after (hq.getInstance? _) hw.getLink?, fun hc ho ⟨child, hchild⟩ => ?_,
    fun ho => ?_⟩
  · exact hs.parent.after (fun i hi => hi.quiet hq) (fun child hc => hc.of_eq (hq.getInstance? _))
      (hq.getLink? _) fun hp => hp.quiet hq
  · obtain ⟨hnot, hpast⟩ := hs.told hc ho ⟨child, hended child hchild⟩
    exact ⟨hnot, hpast.quiet hq⟩
  · obtain ⟨hc, ⟨child, hchild⟩, hparent⟩ := hs.overlooked ho
    refine ⟨hc, ⟨child, hchild.of_eq (hq.getInstance? _)⟩, hparent.imp_right ?_⟩
    rintro ⟨hret, i, hi, hparks⟩
    exact ⟨hret, i, hi.quiet hq, hparks⟩

theorem Invariant.refuse (hs : Invariant env h w₀ p ⟨w, pa, .calling, o⟩) :
    Invariant env h w₀ p ⟨w, pa, .returned, o⟩ := by
  refine hs.clientStep nofun hs.orderly (Kept.refl _) hs.parent trivial fun _ hended => ?_
  obtain ⟨child, hchild, halive⟩ := hs.client
  obtain ⟨child', hchild'⟩ := hended
  cases hchild'.unique hchild
  exact Bool.noConfusion (hchild'.2.symm.trans halive)

/-- the child is acted on -/
theorem Invariant.act {scene : Scene} (hs : Invariant env h w₀ p ⟨w, pa, .calling, o⟩)
    (hb : h.Begins env w₀ p)
    (ha : Opening env.idName env.settings.maxNestingLevel h.act w scene) :
    Invariant env h w₀ p ⟨scene.world, pa, .walking scene.frames, o⟩ := by
  obtain ⟨child, hchild, halive⟩ := hs.client
  have hnone : ∀ child', ¬ h.Ended child' w := by
    intro child' hchild'
    cases hchild'.unique hchild
    exact Bool.noConfusion (hchild'.2.symm.trans halive)
  have hother : h.act.subject? ≠ some p.id := by
    rw [hb.subject]
    exact fun he => hb.distinct (Option.some.inj he)
  refine hs.clientStep nofun (ha.writes.orderly hs.orderly) ha.writes.kept ?_
    (ha.outside hb.subject hb.distinct) nofun
  refine hs.parent.after (fun i hi => ha.has_other hother hi)
    (fun child' hc => absurd hc (hnone child')) (ha.getLink? _) fun hpast => ?_
  obtain ⟨child', hchild', ht⟩ := hpast.child
  exact absurd ⟨hchild', ht⟩ (hnone child')

theorem Invariant.walkChild {fs fs' : List Frame}
    (hs : Invariant env h w₀ p ⟨w, pa, .walking fs, o⟩) (hb : h.Begins env w₀ p)
    (hm : Move env.idName env.settings.maxNestingLevel ⟨fs, w⟩ ⟨fs', w'⟩) :
    Invariant env h w₀ p ⟨w', pa, .walking fs', o⟩ := by
  obtain ⟨_, hchild₀, _⟩ := hb.child
  obtain ⟨child, hchild, _⟩ := hs.kept.instances _ _ hchild₀
  obtain ⟨q, hq, _⟩ := hs.kept.instances _ _ hb.parent
  refine hs.clientStep nofun (hm.writes.orderly hs.orderly) hm.writes.kept ?_
    (hm.has_outside hs.client hq).2 nofun
  exact hs.parent.after (fun i hi => (hm.has_outside hs.client hi).1)
    (fun child' hc => ⟨hm.has_resting (ne_of_terminal hc.2 rfl) hc.1, hc.2⟩)
    (hm.getLink?_outside hs.client hchild (hs.parentId hb hchild)) fun hpast => hm.past hpast

theorem Invariant.leaveChild (hs : Invariant env h w₀ p ⟨w, pa, .walking [], o⟩)
    (hb : h.Begins env w₀ p) (hc : Has h.link.childId child w) :
    Invariant env h w₀ p ⟨w, pa, letGo child, o⟩ := by
  have hparent : child.parentId = some p.id := hs.parentId hb hc
  unfold letGo
  rw [hparent, Option.isSome_some, Bool.and_true]
  by_cases ht : child.status.isTerminal = true
  · rw [if_pos ht]
    exact hs.clientStep nofun hs.orderly (Kept.refl _) hs.parent ⟨hc, ht⟩ nofun
  · rw [if_neg ht]
    refine hs.clientStep nofun hs.orderly (Kept.refl _) hs.parent trivial fun _ hended => ?_
    obtain ⟨child', hchild'⟩ := hended
    exact absurd (hchild'.unique hc ▸ hchild'.2) ht

/-- a parent whose record runs does not wait -/
theorem ParentKnows.past (hp : h.ParentKnows p w (.behind stage i)) (hc : h.Ended child w) :
    Past p.id h.link.childId w.store :=
  ⟨⟨child, hc⟩, i, hp.1, not_parksOn_of_running hp.2.2.1⟩

/-- the link of the child is stored, or is what the parent inserts next -/
theorem ParentKnows.hasLink (hp : h.ParentKnows p w pa) :
    h.HasLink w ∨ w.store.getLink? h.link.childId = none ∧ ∃ i, pa = .behind .insertLink i := by
  cases pa with
  | behind stage i =>
    obtain ⟨_, _, _, hknows⟩ := hp
    cases stage with
    | insertLink => exact .inr ⟨hknows, i, rfl⟩
    | record => exact .inl hknows
    | readChild => exact .inl hknows
    | readLink => exact .inl hknows.1
    | takeOver => exact .inl hknows.1
    | wait => exact .inl hknows
  | walking => exact .inl hp.1
  | returned => exact .inl hp

theorem Invariant.readLink (hs : Invariant env h w₀ p ⟨w, pa, .telling .readLink child, o⟩) :
    Invariant env h w₀ p ⟨w, pa, toldOf child (w.store.getLink? child.id), o⟩ := by
  have hended : h.Ended child w := hs.client
  rw [hs.orderly.keyed _ _ hended.1]
  rcases hs.parent.hasLink with hlink | ⟨hnone, i, rfl⟩
  · rw [show w.store.getLink? h.link.childId = some h.link from hlink]
    exact hs.clientStep nofun hs.orderly (Kept.refl _) hs.parent ⟨hended, hlink, rfl⟩ nofun
  · -- the client finds no parent, but the parent has still to look at the child
    rw [hnone]
    exact hs.clientStep nofun hs.orderly (Kept.refl _) hs.parent trivial
      fun _ _ => ⟨rfl, hs.parent.past hended⟩

theorem toldTo_of_not_parked {q : Instance} (hq : q.isParkedOn child.id = false) :
    toldTo child link (some q) = .returned :=
  if_neg (Bool.eq_false_iff.mp hq)

theorem not_parksOn_of_isParkedOn {id : String} (h : i.isParkedOn id = false) : ¬ ParksOn i id :=
  fun hp => Bool.noConfusion (hp.isParkedOn.symm.trans h)

theorem isParkedOn_of_running {id : String} (h : i.status = .running) :
    i.isParkedOn id = false := by
  unfold Instance.isParkedOn
  rw [h]
  rfl

/-- a parent that is going to wait does not stand still yet, so the client does not wake it -/
theorem Invariant.overlook
    (hs : Invariant env h w₀ p ⟨w, .behind .wait i, .telling (.readParent link) child, o⟩) :
    Invariant env h w₀ p
      ⟨w, .behind .wait i, toldTo child link (w.store.getInstance? p.id), true⟩ := by
  obtain ⟨hstored, _, hr, _⟩ := id hs.parent
  rw [show w.store.getInstance? p.id = some i from hstored,
    toldTo_of_not_parked (isParkedOn_of_running hr)]
  obtain ⟨hended, _⟩ := hs.client
  exact ⟨hs.orderly, hs.kept, hs.parent, trivial, nofun, fun _ => ⟨rfl, ⟨child, hended⟩, .inl rfl⟩⟩

theorem Invariant.readParent
    (hs : Invariant env h w₀ p ⟨w, pa, .telling (.readParent link) child, o⟩)
    (hb : h.Begins env w₀ p) :
    Invariant env h w₀ p
      ⟨w, pa, toldTo child link (w.store.getInstance? link.parentId), o || pa.isToWait⟩ := by
  obtain ⟨hended, hlink, rfl⟩ := id hs.client
  have hchild : child.id = h.link.childId := hs.orderly.keyed _ _ hended.1
  obtain ⟨q, hq, _⟩ := hs.kept.instances _ _ hb.parent
  rw [hb.link]
  -- the wake-up is lost in this step, if the parent has decided to wait and has not written it
  cases hw : pa.isToWait with
  | true =>
    obtain ⟨i, rfl⟩ : ∃ i, pa = .behind .wait i := by
      unfold ParentAt.isToWait at hw
      split at hw
      · exact ⟨_, rfl⟩
      · cases hw
    rw [Bool.or_true]
    exact hs.overlook
  | false =>
    rw [Bool.or_false, hq]
    cases hparked : q.isParkedOn child.id with
    | true =>
      rw [show toldTo child h.link (some q) = .telling (.wake h.link) child from if_pos hparked]
      exact hs.clientStep nofun hs.orderly (Kept.refl _) hs.parent ⟨hended, hlink, rfl⟩ nofun
    | false =>
      rw [toldTo_of_not_parked hparked]
      refine hs.clientStep nofun hs.orderly (Kept.refl _) hs.parent trivial
        fun _ _ => ⟨hw, ⟨child, hended⟩, q, hq, ?_⟩
      rw [← hchild]
      exact not_parksOn_of_isParkedOn hparked

theorem lockedWake_passed {q : Instance} (hq : w.store.getInstance? link.parentId = some q)
    (hparked : q.isParkedOn child.id = false) :
    Quiet w (runFrom (lockedWake env link child) w).2 := by
  have hq' : (w.locked link.parentId).store.getInstance? link.parentId = some q := hq
  have hread : runFrom (isParkedOn link.parentId child.id) (w.locked link.parentId) =
      (.ok false, w.locked link.parentId) := by
    rw [runFrom_isParkedOn, hq']
    simp only [hparked]
  unfold lockedWake
  rw [runFrom_locked, runFrom_bind_ok hread, if_neg Bool.false_ne_true]
  exact (Quiet.locked w _).trans (Quiet.unlocked _ _)

/-- the parent is woken, if it still waits when its lock is free -/
theorem Invariant.wake
    (hs : Invariant env h w₀ p ⟨w, .returned, .telling (.wake link) child, o⟩)
    (hb : h.Begins env w₀ p) :
    Invariant env h w₀ p
      ⟨(runFrom (lockedWake env link child) w).2, .returned, .returned, o⟩ := by
  obtain ⟨hended, hlink, rfl⟩ := id hs.client
  have hchild : child.id = h.link.childId := hs.orderly.keyed _ _ hended.1
  obtain ⟨q, hq, _, hd⟩ := hs.kept.definition hb.parent hb.definition
  have hparent : w.store.getInstance? h.link.parentId = some q := by
    rw [hb.link]
    exact hq
  -- the lock was waited for, so the parent is read once more
  cases hparked : q.isParkedOn child.id with
  | true =>
    have hwaited : WaitedFor w.store child q h.link := by
      refine ⟨?_, hended.2, ?_, ?_, hparked, hparent⟩
      · rw [hchild]
        exact hended.1
      · rw [hs.parentId hb hended.1]
        rfl
      · rw [hchild]
        exact hlink
    rcases lockedWake_acts hs.orderly hwaited with ⟨_, _, _, _, _, hlost⟩ | ⟨j, w', hrun, hdeed, _⟩
    · exact nomatch hb.node.symm.trans (hlost _ hd)
    · rw [hrun]
      have hpast := hdeed.past
      rw [hb.link, hchild] at hpast
      exact hs.clientStep nofun (hdeed.orderly hs.orderly) hdeed.kept (hdeed.getLink? hlink) trivial
        fun _ _ => ⟨rfl, hpast⟩
  | false =>
    have hquiet : Quiet w (runFrom (lockedWake env h.link child) w).2 :=
      lockedWake_passed hparent hparked
    rw [hchild] at hparked
    have hpast : Past p.id h.link.childId w.store :=
      ⟨⟨child, hended⟩, q, hq, not_parksOn_of_isParkedOn hparked⟩
    exact (hs.quiet hquiet).clientStep nofun ((hs.quiet hquiet).orderly) (Kept.refl _)
      (hs.quiet hquiet).parent trivial fun _ _ => ⟨rfl, hpast.quiet hquiet⟩

/-! ## runs -/

theorem Step.invariant (hstep : h.Step env s s') (hb : h.Begins env w₀ p)
    (hs : Invariant env h w₀ p s) : Invariant env h w₀ p s' := by
  cases hstep with
  | behind => exact hs.behind hb
  | walk _ hm => exact hs.walk hm
  | leave => exact hs.leave
  | refuse hq => exact (hs.quiet hq).refuse
  | act hq ha => exact (hs.quiet hq).act hb ha
  | walkChild hm => exact hs.walkChild hb hm
  | leaveChild hc => exact hs.leaveChild hb hc
  | readLink => exact hs.readLink
  | readParent => exact hs.readParent hb
  | wake => exact hs.wake hb

theorem Steps.invariant (hsteps : h.Steps env s s') (hb : h.Begins env w₀ p)
    (hs : Invariant env h w₀ p s) : Invariant env h w₀ p s' := by
  induction hsteps with
  | refl => exact hs
  | tail _ hstep ih => exact hstep.invariant hb ih

/-! ## the calls of the engine -/

/-- where the parent is behind the node -/
def behindNode (h : Handover) : Next → ParentAt
  | .visit _ i => .walking (⟨i.id, h.definition⟩ :: h.rest)
  | .stop _ => .returned

/-- What the engine does behind a node that waits for a child is made of steps. -/
theorem afterNode_steps (hi : Has i.id i w) (hk : h.node.kind = .subprocess)
    (ho : h.outcome.status = .waiting) (hc : WaitsForChild w.store i h.node h.outcome child link)
    (c : ClientAt) (o : Bool) :
    ∃ next w', runFrom (afterNode env h.definition i h.node h.outcome) w = (.ok next, w') ∧
      h.Steps env ⟨w, .behind .readChild i, c, o⟩ ⟨w', h.behindNode next, c, o⟩ := by
  have hread : (h.outcome.wait.bind fun wait => w.store.getInstance? wait.id) = some child := by
    rw [hc.wait]
    exact hc.stored
  have hlink : w.store.getLink? child.id = some link := by
    rw [hc.id]
    exact hc.linked
  have hstep : ∀ stage, h.Steps env ⟨w, .behind stage i, c, o⟩
      ⟨(h.behind env stage i w).1, (h.behind env stage i w).2, c, o⟩ :=
    fun stage => .single .behind
  have hlook := hstep .readChild
  simp only [Handover.behind, hread] at hlook
  unfold afterNode
  simp only [ho]
  rw [if_pos hk]
  by_cases ht : child.status.isTerminal = true
  · have hfetch := hstep (.readLink child)
    simp only [Handover.behind, hlink] at hfetch
    rw [if_pos ht] at hlook
    by_cases hcompleted : child.status = .completed
    · rw [runFrom_bind_ok (runFrom_reconcile_completed env hi hc ht hcompleted)]
      have htake := hstep (.takeOver child link)
      rw [behind_takeOver_completed hi hc.node hcompleted,
        ← ((sameOrigin_withOutputs i child link).written (env.time w)).id] at htake
      exact ⟨_, _, rfl, (hlook.trans hfetch).trans htake⟩
    · rw [runFrom_bind_ok (runFrom_reconcile_failed env hi hc ht hcompleted)]
      have htake := hstep (.takeOver child link)
      simp only [Handover.behind, runFrom_taken_failed hi hcompleted] at htake
      exact ⟨_, _, rfl, (hlook.trans hfetch).trans htake⟩
  · rw [if_neg ht] at hlook
    rw [runFrom_bind_ok (runFrom_reconcile_none env hc ht)]
    have hwait := hstep .wait
    simp only [Handover.behind, runFrom_park env hi] at hwait
    exact ⟨.stop _, _, runFrom_bind_ok (runFrom_park env hi h.outcome) _, hlook.trans hwait⟩

/-- the call of the client -/
def call (env : Env) (h : Handover) : Run EngineError Unit :=
  match h.act with
  | .resume id nodeId data => Engine.resume env id nodeId data
  | .cancel id => Engine.cancel env id
  | _ => return ()

/-- A call of the client is refused, or acts on the child and tells its parents. -/
theorem Begins.called (hb : h.Begins env w₀ p) (ho : Orderly env.idName w) :
    Idle w (runFrom (h.call env) w).2 ∨
      ∃ j u r w', Deed env.idName env.settings.maxNestingLevel h.act w u ∧
        Has h.link.childId j u ∧ runFrom (h.call env) w = (r, w') ∧
        Climb env.idName env.settings.maxNestingLevel (u.store.instances.length + 1) j u r w' := by
  unfold call
  rcases hb.act with hact | ⟨nodeId, data, hact⟩
  · rw [hact]
    have hp := cancel_performed ho h.link.childId
    change Performed _ _ w _ (runFrom (Engine.cancel env h.link.childId) w).1
      (runFrom (Engine.cancel env h.link.childId) w).2 at hp
    generalize runFrom (Engine.cancel env h.link.childId) w = result at hp ⊢
    obtain ⟨r, w'⟩ := result
    cases hp with
    | refused hidle => exact .inl hidle
    | cancelled hdeed hj hc => exact .inr ⟨_, _, _, _, hdeed, hj, rfl, hc⟩
  · rw [hact]
    have hp := resume_performed ho h.link.childId nodeId data
    change Performed _ _ w _ (runFrom (Engine.resume env h.link.childId nodeId data) w).1
      (runFrom (Engine.resume env h.link.childId nodeId data) w).2 at hp
    generalize runFrom (Engine.resume env h.link.childId nodeId data) w = result at hp ⊢
    obtain ⟨r, w'⟩ := result
    cases hp with
    | refused hidle => exact .inl hidle
    | resumed hdeed hj hc => exact .inr ⟨_, _, _, _, hdeed, hj, rfl, hc⟩

theorem walkChild_steps {scene scene' : Scene} (pa : ParentAt) (o : Bool)
    (hm : Moves env.idName env.settings.maxNestingLevel scene scene') :
    h.Steps env ⟨scene.world, pa, .walking scene.frames, o⟩
      ⟨scene'.world, pa, .walking scene'.frames, o⟩ := by
  induction hm with
  | refl => exact .refl
  | tail _ hm ih => exact ih.tail (.walkChild hm)

/-- nobody waits for the child while the parent has still to walk -/
theorem Invariant.not_waitedFor (hs : Invariant env h w₀ p ⟨w, .behind stage i, c, o⟩)
    (hb : h.Begins env w₀ p) (hj : Has h.link.childId j w) (q : Instance) (link : ChildLink) :
    ¬ WaitedFor w.store j q link := by
  intro hw
  have hid : j.id = h.link.childId := hs.orderly.keyed _ _ hj
  obtain ⟨hstored, _, hr, _⟩ := hs.parent
  have hlinked := hw.linked
  rw [hid] at hlinked
  rcases hs.parent.hasLink with hlink | ⟨hnone, _⟩
  · cases Option.some.inj (hlinked.symm.trans hlink)
    have hparent := hw.parent
    rw [hb.link] at hparent
    cases Option.some.inj (hparent.symm.trans hstored)
    exact Bool.noConfusion (hw.parked.symm.trans (isParkedOn_of_running hr))
  · exact nomatch hlinked.symm.trans hnone

/-- a client whose child nobody waits for returns -/
theorem tell_steps (hk : w.store.Keyed) (hj : Has h.link.childId j w)
    (hnobody : ∀ q link, ¬ WaitedFor w.store j q link) (pa : ParentAt) (o : Bool) :
    ∃ o', h.Steps env ⟨w, pa, letGo j, o⟩ ⟨w, pa, .returned, o'⟩ := by
  have hstored : w.store.getInstance? j.id = some j := by
    rw [hk _ _ hj]
    exact hj
  unfold letGo
  split
  · next hends =>
    obtain ⟨ht, hparent⟩ := Bool.and_eq_true_iff.mp hends
    have hread : h.Steps env ⟨w, pa, .telling .readLink j, o⟩
        ⟨w, pa, toldOf j (w.store.getLink? j.id), o⟩ := .single .readLink
    cases hl : w.store.getLink? j.id with
    | none =>
      rw [hl] at hread
      exact ⟨o, hread⟩
    | some link =>
      rw [hl] at hread
      have hreturned : toldTo j link (w.store.getInstance? link.parentId) = .returned := by
        refine if_neg fun hany => ?_
        obtain ⟨q, hq, hparked⟩ := (Option.any_eq_true _ _).mp hany
        exact hnobody q link ⟨hstored, ht, hparent, hl, hparked, hq⟩
      have htold : h.Step env ⟨w, pa, .telling (.readParent link) j, o⟩
          ⟨w, pa, toldTo j link (w.store.getInstance? link.parentId), o || pa.isToWait⟩ :=
        .readParent
      rw [hreturned] at htold
      exact ⟨_, hread.tail htold⟩
  · exact ⟨o, .refl⟩

/-- **A whole call of the client between two steps of the parent is made of steps.** -/
theorem call_steps (hs : Invariant env h w₀ p ⟨w, .behind stage i, .calling, o⟩)
    (hb : h.Begins env w₀ p) :
    ∃ o', h.Steps env ⟨w, .behind stage i, .calling, o⟩
      ⟨(runFrom (h.call env) w).2, .behind stage i, .returned, o'⟩ := by
  rcases hb.called hs.orderly with hidle | ⟨j, u, r, w', hdeed, hj, hrun, hclimb⟩
  · exact ⟨o, .single (.refuse hidle.quiet)⟩
  · rw [hrun]
    obtain ⟨v, scene, hquiet, hopening, hmoves⟩ := hdeed
    have hwalked : h.Steps env ⟨w, .behind stage i, .calling, o⟩
        ⟨u, .behind stage i, .walking [], o⟩ :=
      .head (.act hquiet hopening) (walkChild_steps _ _ hmoves)
    -- the record of the parent runs throughout, so the climb ends with the child
    have hu := hwalked.invariant hb hs
    have hnobody := hu.not_waitedFor hb hj
    have hw' : w' = u := by
      cases hclimb with
      | ended => rfl
      | refused hw => exact absurd hw (hnobody _ _)
      | up hw => exact absurd hw (hnobody _ _)
    subst hw'
    obtain ⟨o', htold⟩ := tell_steps hu.orderly.keyed hj hnobody (.behind stage i) o
    exact ⟨o', (hwalked.tail (.leaveChild hj)).trans htold⟩

/-- A parent that waits for a child that has ended. -/
def Forgotten (h : Handover) (p : Instance) (w : World) : Prop :=
  ∃ i child, Has p.id i w ∧ ParksOn i h.link.childId ∧ h.Ended child w

/-- **A wake-up is lost exactly where the client reads the parent between its look at the child and
its wait.** -/
theorem forgotten_iff_overlooked (env : Env) (h : Handover) (w : World) (p : Instance)
    (hb : h.Begins env w p) (s : State)
    (hrun : h.Steps env ⟨w, .behind .insertLink p, .calling, false⟩ s)
    (hparent : s.parent = .returned) (hclient : s.client = .returned) :
    h.Forgotten p s.world ↔ s.overlooked = true := by
  have hs : Invariant env h w p s := hrun.invariant hb hb.invariant
  constructor
  · -- a client that has returned knows that the parent does not wait, unless it has overlooked it
    rintro ⟨i, child, hi, hparks, hended⟩
    by_contra ho
    obtain ⟨_, hpast⟩ := hs.told hclient (Bool.eq_false_iff.mpr ho) ⟨child, hended⟩
    obtain ⟨k, hk, hnot⟩ := hpast.parent
    cases Option.some.inj (hk.symm.trans hi)
    exact hnot hparks
  · intro ho
    obtain ⟨_, ⟨child, hended⟩, hwaits | ⟨_, i, hi, hparks⟩⟩ := hs.overlooked ho
    · rw [hparent] at hwaits
      cases hwaits
    · exact ⟨i, child, hi, hparks, hended⟩

/-! ## a parent that is forgotten -/

/-- the parent, if nobody does anything meanwhile, up to its wait -/
theorem Begins.looks (hb : h.Begins env w p) :
    ∃ w' i, h.Steps env ⟨w, .behind .insertLink p, .calling, false⟩
      ⟨w', .behind .wait i, .calling, false⟩ := by
  have hinsert : h.Step env ⟨w, .behind .insertLink p, .calling, false⟩
      ⟨w.link h.link, .behind .record p, .calling, false⟩ := .behind
  have hlinked : Has p.id p (w.link h.link) := hb.parent
  have hrecord : h.Step env ⟨w.link h.link, .behind .record p, .calling, false⟩ _ := .behind
  rw [behind_record hlinked] at hrecord
  have hrun : h.Steps env _ _ := .head hinsert (.single hrecord)
  obtain ⟨child, hchild, halive⟩ := (Steps.invariant hrun hb hb.invariant).client
  have hlook := hrun.tail .behind
  simp only [Handover.behind, hb.readsChild hchild, if_neg (Bool.eq_false_iff.mp halive)] at hlook
  exact ⟨_, _, hlook⟩

/-- **Every handover can lose its wake-up**, if the client cancels the child. -/
theorem Begins.forgets (hb : h.Begins env w p) (hact : h.act = .cancel h.link.childId) :
    ∃ s, h.Steps env ⟨w, .behind .insertLink p, .calling, false⟩ s ∧ s.parent = .returned ∧
      s.client = .returned ∧ ∃ i child, Has p.id i s.world ∧ i.status = .waiting ∧
        ParksOn i h.link.childId ∧ Has h.link.childId child s.world ∧
        child.status = .cancelled := by
  obtain ⟨v, i, hrun⟩ := hb.looks
  have hs := hrun.invariant hb hb.invariant
  obtain ⟨child, hchild, halive⟩ := hs.client
  have hid : child.id = h.link.childId := hs.orderly.keyed _ _ hchild
  -- the parent has looked; now the client is called from beginning to end, and then it waits
  obtain ⟨o, hcall⟩ := call_steps hs hb
  obtain ⟨j, hj, hcancelled⟩ := cancel_cancels (i := child) hs.orderly (hid ▸ hchild) halive
  have hcall' : h.call env = Engine.cancel env child.id := by
    unfold call
    rw [hact, hid]
  rw [← hcall', hid] at hj
  generalize (runFrom (h.call env) v).2 = u at hcall hj
  obtain ⟨hstored, hpid, _⟩ := (hcall.invariant hb hs).parent
  have hi : Has i.id i u := hpid ▸ hstored
  have hwait := (hrun.trans hcall).tail .behind
  simp only [Handover.behind, runFrom_park env hi] at hwait
  refine ⟨_, hwait, rfl, rfl, _, j, World.getInstance?_put_self hpid, rfl,
    hb.waitsForChild rfl rfl, ?_, hcancelled⟩
  exact Has.put_of_ne hj fun he => hb.distinct (he.trans hpid)

end Workflows.Engine.Handover

namespace Workflows.Engine.Sample

/-- a parent at the node of its child -/
def calling : Instance := { Instance.create "i" "parent" "system" [] ⟨0, 0⟩ with
  nodeStatuses := [("begin", .completed)] }

/-- its child, which is started as `ii` -/
def request : StartRequest := { StartRequest.of "child" with
  triggeredBy := "subprocess:i"
  parentId := some "i"
  nestingLevel := 1 }

def callingWorld : World := { world with ids := 1 }.put calling

def launchedWorld : World := (runFrom ((Operation.start request).run env) callingWorld).2

/-- the child is cancelled meanwhile -/
def handover : Handover where
  definition := parent
  node := caller
  outcome := childWait
  vars := []
  startedAt := ⟨0, 0⟩
  completedAt := ⟨0, 0⟩
  link := joined
  rest := []
  act := .cancel "ii"

theorem launched_orderly : Orderly names launchedWorld := by
  have hcalling : Orderly env.idName callingWorld := by
    refine ⟨⟨names_injective, fun n hn => ?_, fun n _ => rfl⟩,
      keyed_put (fun _ _ h => by cases h) _⟩
    unfold callingWorld
    rw [World.getInstance?_put_of_ne]
    · rfl
    · intro he
      have : n = 0 := names_injective he
      subst this
      exact absurd hn (by decide)
  exact (start_performed hcalling request).orderly hcalling

theorem handover_begins : handover.Begins env launchedWorld calling where
  orderly := launched_orderly
  parent := by
    unfold Has
    decide +kernel
  running := rfl
  definition := by decide +kernel
  node := rfl
  child := by
    have hchild : (launchedWorld.store.getInstance? "ii").any (fun child =>
        child.status.isParked && child.parentId = some "i") = true := by
      decide +kernel
    obtain ⟨child, hstored, hboth⟩ := (Option.any_eq_true _ _).mp hchild
    obtain ⟨hparked, hparent⟩ := Bool.and_eq_true_iff.mp hboth
    exact ⟨child, hstored, hparked, of_decide_eq_true hparent⟩
  wait := rfl
  link := rfl
  unlinked := by decide +kernel
  act := .inl rfl

end Workflows.Engine.Sample

namespace Workflows.Engine.Handover

theorem forgotten_iff_overlooked_cancel :
    ∃ s, Sample.handover.Steps Sample.env
        ⟨Sample.launchedWorld, .behind .insertLink Sample.calling, .calling, false⟩ s ∧
      s.parent = .returned ∧ s.client = .returned ∧ s.overlooked = true := by
  obtain ⟨s, hrun, hparent, hclient, i, child, hi, _, hparks, hchild, hcancelled⟩ :=
    Sample.handover_begins.forgets rfl
  refine ⟨s, hrun, hparent, hclient, ?_⟩
  refine (forgotten_iff_overlooked Sample.env Sample.handover Sample.launchedWorld Sample.calling
    Sample.handover_begins s hrun hparent hclient).mp ⟨i, child, hi, hparks, hchild, ?_⟩
  rw [hcancelled]
  rfl

/-- **A wake-up that is lost.**  The parent reads its child, which waits.  Then the child is
cancelled, and its parent is read, which does not wait yet.  Then the parent waits. -/
theorem wakeup_lost : Sample.handover.Begins Sample.env Sample.launchedWorld Sample.calling ∧
    ∃ s, Sample.handover.Steps Sample.env
        ⟨Sample.launchedWorld, .behind .insertLink Sample.calling, .calling, false⟩ s ∧
      s.parent = .returned ∧ s.client = .returned ∧
      ∃ i child, s.world.store.getInstance? "i" = some i ∧ i.status = .waiting ∧
        ParksOn i "ii" ∧ s.world.store.getInstance? "ii" = some child ∧
        child.status = .cancelled :=
  ⟨Sample.handover_begins, Sample.handover_begins.forgets rfl⟩

end Workflows.Engine.Handover
