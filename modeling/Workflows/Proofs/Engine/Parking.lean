import Mathlib.Data.Set.Basic
import Workflows.Proofs.Engine.Level
import Workflows.Proofs.Engine.Status

/-!
# Parents that wait for children

When a child ends, its parent waits for it a while longer, until the outcome is reported; then it is
the end of the parent that is still to be reported.  So the invariant names the instances whose end
may be unreported:

* `Backed`       what a wait for a child needs
* `Parked`       so does every instance that waits for a child
* `Unawaited`    nobody waits for an instance that a walk could end
* `Sound`        the invariant; a deed moves it from `Act.reported` to `Act.touched`

Main statement: between operations every wait for a child is for a linked one that has not ended
(`parked_after`).
-/

namespace Workflows.Engine
variable {names : Nat → String} {maxLevel : Nat} {s s' : Scene} {w w' : World} {act : Act}
  {op : Operation} {result : Except EngineError Unit} {fuel : Nat} {E E' : Set String}
  {i j child : Instance} {p c : String}

/-- An instance stands still until a child is reported. -/
def ParksOn (i : Instance) (childId : String) : Prop :=
  i.status.isParked = true ∧ ∃ wait, i.waitingFor = some wait ∧ wait.kind = .subprocess ∧
    wait.id = childId

/-- A stored child that is linked to an instance, and has not ended but for the exempt ones. -/
def Backed (E : Set String) (st : Store) (parentId childId : String) : Prop :=
  ∃ child link, st.getInstance? childId = some child ∧ st.getLink? childId = some link ∧
    link.parentId = parentId ∧ (child.status.isTerminal = true → childId ∈ E)

def Parked (E : Set String) (w : World) : Prop :=
  ∀ p i c, w.store.getInstance? p = some i → ParksOn i c → Backed E w.store p c

/-- Only instances that stand still wait for something. -/
def Unwaiting (w : World) : Prop :=
  ∀ id i, w.store.getInstance? id = some i → i.status.isParked = false → i.waitingFor = none

def Unawaited (E : Set String) (s : Scene) : Prop :=
  ∀ f ∈ s.frames, f.instanceId ∈ E ∨ s.world.store.getLink? f.instanceId = none ∨
    ∃ i, s.world.store.getInstance? f.instanceId = some i ∧ i.status ≠ .running

/-- The invariant of waits for children, where the ends of some instances may be unreported. -/
structure Sound (E : Set String) (s : Scene) : Prop where
  consistent : Consistent s
  unwaiting : Unwaiting s.world
  parked : Parked E s.world
  unawaited : Unawaited E s

theorem ParksOn.isParkedOn (h : ParksOn i c) : i.isParkedOn c = true := by
  obtain ⟨hparked, wait, hwait, _, hid⟩ := h
  unfold Instance.isParkedOn
  rw [hparked, hwait]
  exact decide_eq_true hid

theorem not_parksOn_of_running (h : i.status = .running) : ¬ ParksOn i c := by
  rintro ⟨hparked, _⟩
  rw [h] at hparked
  cases hparked

theorem not_parksOn_of_terminal (h : i.status.isTerminal = true) : ¬ ParksOn i c := by
  rintro ⟨hparked, _⟩
  rw [not_terminal_of_parked hparked] at h
  cases h

theorem not_parksOn_of_none (h : i.waitingFor = none) : ¬ ParksOn i c := by
  rintro ⟨_, wait, hwait, _⟩
  rw [h] at hwait
  cases hwait

theorem Awaited.backed {st : Store} (h : Awaited st p c) : Backed E st p c := by
  obtain ⟨child, link, hchild, ht, hlink, hparent⟩ := h
  exact ⟨child, link, hchild, hlink, hparent, fun he => absurd he (Bool.eq_false_iff.mp ht)⟩

/-! ## waits and writes -/

theorem Backed.mono {st : Store} (h : Backed E st p c) (hE : E ⊆ E') : Backed E' st p c := by
  obtain ⟨child, link, hchild, hlink, hparent, ht⟩ := h
  exact ⟨child, link, hchild, hlink, hparent, fun he => hE (ht he)⟩

theorem Parked.mono (h : Parked E w) (hE : E ⊆ E') : Parked E' w :=
  fun p i c hi hp => (h p i c hi hp).mono hE

theorem Backed.quiet (h : Backed E w.store p c) (hq : Quiet w w') : Backed E w'.store p c := by
  obtain ⟨child, link, hchild, hlink, hparent, ht⟩ := h
  exact ⟨child, link, (hq.getInstance? c).trans hchild, (hq.getLink? c).trans hlink, hparent, ht⟩

theorem Parked.quiet (h : Parked E w) (hq : Quiet w w') : Parked E w' :=
  fun p i c hi hp => (h p i c ((hq.getInstance? p).symm.trans hi) hp).quiet hq

/-- A record whose end, if it is one, is exempt or is nothing that anybody waits for. -/
def Harmless (E : Set String) (w : World) (j : Instance) : Prop :=
  j.status.isTerminal = true → j.id ∈ E ∨ w.store.getLink? j.id = none ∨
    ∃ i, w.store.getInstance? j.id = some i ∧ i.status.isTerminal = true

theorem Harmless.of_exempt (h : j.id ∈ E) : Harmless E w j := fun _ => .inl h

theorem Harmless.of_alive (h : j.status.isTerminal = false) : Harmless E w j :=
  fun ht => absurd ht (Bool.eq_false_iff.mp h)

theorem Harmless.of_running (h : j.status = .running) : Harmless E w j := by
  refine .of_alive ?_
  rw [h]
  rfl

theorem Backed.put (h : Backed E w.store p c) (hj : Harmless E w j) :
    Backed E (w.put j).store p c := by
  obtain ⟨child, link, hchild, hlink, hparent, ht⟩ := h
  by_cases hc : c = j.id
  · refine ⟨j, link, World.getInstance?_put_self hc.symm, hlink, hparent, fun hend => ?_⟩
    subst hc
    rcases hj hend with hexempt | hnone | ⟨i, hi, hti⟩
    · exact hexempt
    · rw [hnone] at hlink
      cases hlink
    · cases Option.some.inj (hi.symm.trans hchild)
      exact ht hti
  · exact ⟨child, link, (World.getInstance?_put_of_ne hc).trans hchild, hlink, hparent, ht⟩

theorem Parked.put (h : Parked E w) (hw : ∀ c, ParksOn j c → Backed E w.store j.id c)
    (hj : Harmless E w j) : Parked E (w.put j) := by
  intro p i c hi hp
  rw [World.getInstance?_put] at hi
  split at hi
  · next he =>
    cases hi
    rw [he]
    exact (hw c hp).put hj
  · exact (h p i c hi hp).put hj

theorem Parked.link {l : ChildLink} (h : Parked E w) (hl : w.store.getLink? l.childId = none) :
    Parked E (w.link l) := by
  intro p i c hi hp
  obtain ⟨child, link, hchild, hlink, hparent, ht⟩ := h p i c hi hp
  refine ⟨child, link, hchild, ?_, hparent, ht⟩
  rw [World.getLink?_link, if_neg]
  · exact hlink
  · rintro rfl
    rw [hl] at hlink
    cases hlink

/-- an instance that nobody waits for is exempt no longer -/
theorem Parked.drop (h : Parked (insert c E) w)
    (hc : ∀ p i, w.store.getInstance? p = some i → ¬ ParksOn i c) : Parked E w := by
  intro p i c' hi hp
  obtain ⟨child, link, hchild, hlink, hparent, ht⟩ := h p i c' hi hp
  refine ⟨child, link, hchild, hlink, hparent, fun he => ?_⟩
  rcases Set.mem_insert_iff.mp (ht he) with rfl | hmem
  · exact absurd hp (hc p i hi)
  · exact hmem

theorem Unwaiting.quiet (h : Unwaiting w) (hq : Quiet w w') : Unwaiting w' :=
  fun id i hi => h id i ((hq.getInstance? id).symm.trans hi)

theorem Unwaiting.put (h : Unwaiting w) (hj : j.status.isParked = false → j.waitingFor = none) :
    Unwaiting (w.put j) := by
  intro id i hi
  rw [World.getInstance?_put] at hi
  split at hi
  · cases hi
    exact hj
  · exact h id i hi

theorem Unawaited.nil : Unawaited E ⟨[], w⟩ := fun _ hf => nomatch hf

theorem Unawaited.put {fs : List Frame} (h : Unawaited E ⟨fs, w⟩)
    (hj : ∀ i, w.store.getInstance? j.id = some i → i.status = .running) :
    Unawaited E ⟨fs, w.put j⟩ := by
  intro f hf
  rcases h f hf with hexempt | hnone | ⟨i, hi, hr⟩
  · exact .inl hexempt
  · exact .inr (.inl hnone)
  · refine .inr (.inr ⟨i, (World.getInstance?_put_of_ne ?_).trans hi, hr⟩)
    intro he
    exact hr (hj i (he ▸ hi))

/-! ## moves -/

theorem Created.running {r : StartRequest} {d : Definition} (h : Created names maxLevel w r d i) :
    i.status = .running ∧ i.waitingFor = none := by
  obtain ⟨_, _, _, he⟩ := h.definition
  rw [he]
  exact ⟨rfl, rfl⟩

theorem Halt.waitingFor {st : Store} (h : Halt st i j) :
    j.status.isParked = false → j.waitingFor = none := by
  cases h with
  | wait => exact nofun
  | complete => exact fun _ => rfl
  | fail => exact fun _ => rfl
  | failWith => exact fun _ => rfl

/-- a walk ends in a wait for a child only if the child has not ended -/
theorem Halt.backed {st : Store} (h : Halt st i j) (hp : ParksOn j c) : Backed E st i.id c := by
  cases h with
  | wait wait now h =>
    obtain ⟨_, w, hw, hkind, rfl⟩ := hp
    exact (h w hw hkind).backed
  | complete => exact absurd hp (not_parksOn_of_terminal rfl)
  | fail => exact absurd hp (not_parksOn_of_terminal rfl)
  | failWith => exact absurd hp (not_parksOn_of_terminal rfl)

/-- nobody waits for an instance that runs, unless it is exempt -/
theorem Unawaited.harmless {f : Frame} {fs : List Frame} (h : Unawaited E ⟨f :: fs, w⟩)
    (hi : w.store.getInstance? f.instanceId = some i) (hr : i.status = .running)
    (hid : j.id = f.instanceId) : Harmless E w j := by
  intro _
  rw [hid]
  rcases h f List.mem_cons_self with hexempt | hnone | ⟨k, hk, hne⟩
  · exact .inl hexempt
  · exact .inr (.inl hnone)
  · cases Option.some.inj (hk.symm.trans hi)
    exact absurd hr hne

theorem Move.parked (h : Move names maxLevel s s') (hs : Sound E s) : Parked E s'.world := by
  cases h with
  | quiet hq => exact hs.parked.quiet hq
  | create _ _ _ _ hc =>
    obtain ⟨hr, _⟩ := hc.running
    exact hs.parked.put (fun c hp => absurd hp (not_parksOn_of_running hr)) (.of_running hr)
  | link _ _ hl => exact hs.parked.link hl.unlinked
  | @advance f fs w i j hi hid hr h now =>
    have hrun : (j.written now).status = .running := h.status.trans hr
    exact hs.parked.put (fun c hp => absurd hp (not_parksOn_of_running hrun)) (.of_running hrun)
  | @halt f fs w i j hi hid hr h now =>
    have hsame : (j.written now).id = i.id := h.sameOrigin.id
    refine hs.parked.put (fun c hp => ?_) (hs.unawaited.harmless hi hr (hsame.trans hid))
    rw [hsame]
    exact h.backed hp

theorem Move.unwaiting (h : Move names maxLevel s s') (hs : Unwaiting s.world) :
    Unwaiting s'.world := by
  cases h with
  | quiet hq => exact hs.quiet hq
  | create _ _ _ _ hc => exact hs.put fun _ => hc.running.2
  | link => exact hs
  | advance hi hid hr h now =>
    refine hs.put fun _ => h.waitingFor.trans (hs _ _ hi ?_)
    rw [hr]
    rfl
  | halt hi hid hr h now => exact hs.put h.waitingFor

theorem Move.unawaited (h : Move names maxLevel s s') (hs : Unawaited E s) : Unawaited E s' := by
  cases h with
  | quiet hq =>
    intro f hf
    rw [hq.getLink?, hq.getInstance?]
    exact hs f hf
  | create _ _ _ _ hc =>
    intro f hf
    rcases List.mem_cons.mp hf with rfl | hf
    · exact .inr (.inl hc.unlinked)
    · exact hs.put (fun k hk => nomatch hc.unstored.symm.trans hk) f hf
  | link _ _ hl =>
    intro f hf
    rw [World.getLink?_link, if_neg (hl.unwalked f hf)]
    exact hs f hf
  | advance hi hid hr h now =>
    refine hs.put fun k hk => ?_
    have hid' := h.sameOrigin.id.trans hid
    cases Option.some.inj ((hid' ▸ hk).symm.trans hi)
    exact hr
  | halt hi hid hr h now =>
    intro f hf
    refine Unawaited.put hs (fun k hk => ?_) f (List.mem_cons_of_mem _ hf)
    have hid' := h.sameOrigin.id.trans hid
    cases Option.some.inj ((hid' ▸ hk).symm.trans hi)
    exact hr

theorem Move.sound (h : Move names maxLevel s s') (hs : Sound E s) : Sound E s' :=
  ⟨h.consistent hs.consistent, h.unwaiting hs.unwaiting, h.parked hs, h.unawaited hs.unawaited⟩

theorem Moves.sound (h : Moves names maxLevel s s') (hs : Sound E s) : Sound E s' := by
  induction h with
  | refl => exact hs
  | tail _ hm ih => exact hm.sound ih

/-! ## openings -/

/-- the instances whose end is being reported by an act -/
def Act.reported : Act → Set String
  | .wake _ child => {child.id}
  | _ => ∅

/-- the instances that may have ended by an act without a report -/
def Act.touched : Act → Set String
  | .start _ | .pause _ => ∅
  | .resume id _ _ | .cancel id => {id}
  | .wake link _ => {link.parentId}

/-- A parent that is woken no longer waits, and nobody else has waited for its child. -/
theorem Parked.woken {d : Definition} {link : ChildLink} (h : Parked {child.id} w)
    (hk : Woken w.store d i child link) (hj : j.id = i.id) (hne : ∀ c, ¬ ParksOn j c) :
    Parked {link.parentId} (w.put j) := by
  have hparent : link.parentId = i.id := hk.reports.parent
  have hboth : Parked (insert child.id {link.parentId}) (w.put j) := by
    refine (h.mono ?_).put (fun c hp => absurd hp (hne c)) (.of_exempt ?_)
    · exact Set.singleton_subset_iff.mpr (Set.mem_insert _ _)
    · rw [hj, ← hparent]
      exact Set.mem_insert_of_mem _ (Set.mem_singleton _)
  refine hboth.drop fun p k hp hpark => ?_
  -- the link of the child names the one who waits for it
  obtain ⟨_, link', _, hlink, hp', _⟩ := hboth p k child.id hp hpark
  cases Option.some.inj (hlink.symm.trans hk.reports.linked)
  have hself : (w.put j).store.getInstance? p = some j :=
    World.getInstance?_put_self (hj.trans (hparent.symm.trans hp'))
  cases Option.some.inj (hself.symm.trans hp)
  exact hne _ hpark

theorem parksOn_of_held (now : Instant) (hu : i.status.isParked = false → i.waitingFor = none)
    (hp : ParksOn (held i now) c) : ParksOn i c := by
  obtain ⟨_, wait, hwait, hkind, hid⟩ := hp
  refine ⟨?_, wait, hwait, hkind, hid⟩
  cases hparked : i.status.isParked with
  | true => rfl
  | false =>
    have hnone : (held i now).waitingFor = none := hu hparked
    rw [hnone] at hwait
    cases hwait

theorem Opening.parked (h : Opening names maxLevel act w s) (hu : Unwaiting w)
    (hp : Parked act.reported w) : Parked act.touched s.world := by
  cases h with
  | start hc =>
    obtain ⟨hr, _⟩ := hc.running
    exact hp.put (fun c hp => absurd hp (not_parksOn_of_running hr)) (.of_running hr)
  | resume data now hi _ _ _ =>
    refine (hp.mono (Set.empty_subset _)).put (fun c hp => absurd hp (not_parksOn_of_running rfl))
      (.of_exempt ?_)
    exact (sameOrigin_withData _ _ data).id
  | wake now h _ _ =>
    exact hp.woken h (sameOrigin_withOutputs _ _ _).id fun c => not_parksOn_of_running rfl
  | note now h _ _ => exact hp.woken h (sameOrigin_noted _ _ _).id fun c => not_parksOn_of_none rfl
  | failWith now h _ =>
    exact hp.woken h (sameOrigin_failedWith _ _ _ now).id fun c => not_parksOn_of_terminal rfl
  | pause now hi _ _ =>
    exact hp.put (fun c hc => hp _ _ c hi (parksOn_of_held now (hu _ _ hi) hc)) (.of_alive rfl)
  | cancel now hi _ =>
    refine (hp.mono (Set.empty_subset _)).put (fun c hp => absurd hp (not_parksOn_of_terminal rfl))
      (.of_exempt ?_)
    exact Set.mem_singleton _

theorem Opening.unwaiting (h : Opening names maxLevel act w s) (hu : Unwaiting w) :
    Unwaiting s.world := by
  cases h with
  | start hc => exact hu.put fun _ => hc.running.2
  | resume => exact hu.put fun _ => rfl
  | wake => exact hu.put fun _ => rfl
  | note => exact hu.put fun _ => rfl
  | failWith => exact hu.put fun _ => rfl
  | pause => exact hu.put nofun
  | cancel => exact hu.put fun _ => rfl

theorem Opening.unawaited (h : Opening names maxLevel act w s) : Unawaited act.touched s := by
  cases h with
  | start hc =>
    intro f hf
    rw [List.mem_singleton.mp hf]
    exact .inr (.inl hc.unlinked)
  | resume =>
    intro f hf
    rw [List.mem_singleton.mp hf]
    exact .inl rfl
  | wake now h _ _ =>
    intro f hf
    rw [List.mem_singleton.mp hf]
    exact .inl h.reports.parent.symm
  | note => exact Unawaited.nil
  | failWith => exact Unawaited.nil
  | pause => exact Unawaited.nil
  | cancel => exact Unawaited.nil

theorem Sound.quiet (h : Sound E ⟨[], w⟩) (hq : Quiet w w') : Sound E ⟨[], w'⟩ := by
  -- a move of any engine
  have hmove : Move (fun _ => "") 0 ⟨[], w⟩ ⟨[], w'⟩ := .quiet hq
  exact hmove.sound h

/-- **A deed reports the end of the child that it is about, and leaves at most its own instance
unreported.** -/
theorem Deed.sound (h : Deed names maxLevel act w w') (hs : Sound act.reported ⟨[], w⟩) :
    Sound act.touched ⟨[], w'⟩ := by
  obtain ⟨v, scene, hquiet, hopening, hmoves⟩ := h
  have hv : Sound act.reported ⟨[], v⟩ := hs.quiet hquiet
  refine Moves.sound hmoves ⟨hopening.consistent hv.consistent, hopening.unwaiting hv.unwaiting, ?_,
    hopening.unawaited⟩
  exact hopening.parked hv.unwaiting hv.parked

/-! ## from parent to parent -/

/-- an instance that no parent waits for has nothing to report -/
theorem Sound.ended (hs : Sound {child.id} ⟨[], w⟩)
    (hc : w.store.getInstance? child.id = some child)
    (h : ∀ parent link, ¬ WaitedFor w.store child parent link) : Sound ∅ ⟨[], w⟩ := by
  refine ⟨hs.consistent, hs.unwaiting, fun p i c hi hp => ?_, Unawaited.nil⟩
  obtain ⟨k, link, hk, hlink, hparent, ht⟩ := hs.parked p i c hi hp
  refine ⟨k, link, hk, hlink, hparent, fun he => ?_⟩
  cases Set.mem_singleton_iff.mp (ht he)
  cases Option.some.inj (hk.symm.trans hc)
  have hjoined := hs.consistent.linked child.id link child hlink hc
  refine absurd ⟨hc, he, ?_, hlink, hp.isParkedOn, ?_⟩ (h i link)
  · rw [hjoined.parentId]
    rfl
  · rw [hparent]
    exact hi

/-- **The end of an instance is reported as far up as parents wait for it.** -/
theorem Climb.sound (h : Climb names maxLevel fuel child w result w')
    (hs : Sound {child.id} ⟨[], w⟩) (hc : w.store.getInstance? child.id = some child)
    (hfuel : (shallow w child.nestingLevel).card < fuel) : Sound ∅ ⟨[], w'⟩ := by
  induction h with
  | exhausted => exact absurd hfuel (Nat.not_lt_zero _)
  | ended h => exact hs.ended hc h
  | @refused fuel child parent link w w' e h hd _ =>
    obtain ⟨p, d, n, hp, _, hdef, hn⟩ :=
      (hs.consistent.linked child.id link child h.linked hc).parent
    cases Option.some.inj (h.parent.symm.trans hp)
    rw [hd d hdef] at hn
    cases hn
  | @up fuel child parent j link w u w' result h hdeed hj _ ih =>
    have hu : Sound {link.parentId} ⟨[], u⟩ := hdeed.sound hs
    have hid : j.id = link.parentId := hu.consistent.keyed _ _ hj
    obtain ⟨p, _, _, hp, hlevel, _⟩ := (hs.consistent.linked child.id link child h.linked hc).parent
    cases Option.some.inj (h.parent.symm.trans hp)
    refine ih ?_ ?_ (Nat.lt_of_lt_of_le (hdeed.shallow_wake_lt hp hlevel hj) ?_)
    · rw [hid]
      exact hu
    · rw [hid]
      exact hj
    · exact Nat.le_of_lt_succ hfuel

theorem Climb.sound_of_stored {id : String}
    (h : Climb names maxLevel (w.store.instances.length + 1) j w result w')
    (hs : Sound {id} ⟨[], w⟩) (hj : w.store.getInstance? id = some j) : Sound ∅ ⟨[], w'⟩ := by
  have hid : j.id = id := hs.consistent.keyed _ _ hj
  subst hid
  exact h.sound hs hj (Nat.lt_succ_of_le (card_shallow_le w j.nestingLevel))

/-! ## operations -/

/-- a record is written of an instance that stays in its state, and nothing is walked any more -/
theorem Sound.record {fs : List Frame} (hs : Sound E ⟨fs, w⟩)
    (hi : w.store.getInstance? i.id = some i) (ho : i.SameOrigin j)
    (hstatus : j.status = i.status) (hwait : j.waitingFor = i.waitingFor) :
    Sound E ⟨[], w.put j⟩ := by
  have hwrites : Writes (fun _ => "") 0 w (w.put j) := .record hi ho rfl rfl rfl
  refine ⟨⟨hwrites.kept.filed hs.consistent.filed, hwrites.keyed hs.consistent.keyed, Framed.nil,
    EachLinked.record Joined.lasting hs.consistent.linked hi ho rfl hwrites.kept⟩,
    hs.unwaiting.put ?_, hs.parked.put ?_ ?_, Unawaited.nil⟩
  · rw [hstatus, hwait]
    exact hs.unwaiting i.id i hi
  · intro c hp
    rw [ho.id]
    refine hs.parked i.id i c hi ⟨hstatus ▸ hp.1, ?_⟩
    rw [← hwait]
    exact hp.2
  · intro ht
    refine .inr (.inr ⟨i, ?_, hstatus ▸ ht⟩)
    rw [ho.id]
    exact hi

theorem Performed.sound (h : Performed names maxLevel w op result w') (hw : Walked ⟨[], w⟩)
    (hs : Sound ∅ ⟨[], w⟩) : Sound ∅ ⟨[], w'⟩ := by
  cases h with
  | refused hidle => exact hs.quiet hidle.quiet
  | started hdeed => exact hdeed.sound hs
  | resumed hdeed hj hc => exact hc.sound_of_stored (hdeed.sound hs) hj
  | held hidle => exact hs.quiet hidle.quiet
  | paused hdeed => exact hdeed.sound hs
  | cancelled hdeed hj hc => exact hc.sound_of_stored (hdeed.sound hs) hj
  | @stepped id _ i d n o vars t t' now v _ hi hid hd _ hm hv hq =>
    -- the frame of a single step is that of an instance that does not run
    have hstart : Sound ∅ ⟨[⟨id, d⟩], w⟩ := by
      refine ⟨⟨hs.consistent.filed, hs.consistent.keyed, ?_, hs.consistent.linked⟩, hs.unwaiting,
        hs.parked, ?_⟩
      · intro f hf
        rw [List.mem_singleton.mp hf]
        exact ⟨i, hi, hd⟩
      · intro f hf
        rw [List.mem_singleton.mp hf]
        exact .inr (.inr ⟨i, hi, hw.at_rest hi⟩)
    have hend : Sound ∅ ⟨[⟨id, d⟩], v⟩ := Moves.sound hm hstart
    have hstored : v.store.getInstance? i.id = some i := by
      rw [hid]
      exact hv
    have hsame := (sameOrigin_recordStep i n o vars t t').written now
    exact Sound.quiet (hend.record hstored hsame rfl rfl) hq

end Workflows.Engine
