import Workflows.Proofs.Engine.Climb
import Workflows.Proofs.Engine.Level

/-!
# The chain of parents has an end

The end of an instance is told from parent to parent, as long as they end themselves.  A parent ends
only if every instance that was started on its way has ended too: it would wait for any other.  So a
round of telling leaves one living instance less, and the chain is not longer than there are
instances, whatever is stored.

* `living`      the stored instances that have not ended
* `Settled`     an outcome that waits for no living child
* `Quenches`    a launcher that leaves nothing new alive behind an instance that has ended

Main statement: with more fuel than instances, `settle` does the same as `finish`
(`settle_eq_finish`).
-/

namespace Workflows.Engine
variable {names : Nat → String} {env : Env} {launcher : Launcher} {f : Frame} {fs : List Frame}
  {w w' : World} {i j child : Instance} {n : Node} {o : Outcome} {id : String}

/-! ## living instances -/

def living (w : World) : Finset String := storedOf (fun i => !i.status.isTerminal) w

theorem mem_living :
    id ∈ living w ↔ ∃ i, w.store.getInstance? id = some i ∧ i.status.isTerminal = false := by
  unfold living
  rw [mem_storedOf]
  simp only [Bool.not_eq_true']

theorem living_congr (h : ∀ id, w'.store.getInstance? id = w.store.getInstance? id) :
    living w' ⊆ living w := by
  intro id hid
  obtain ⟨i, hi, ha⟩ := mem_living.mp hid
  exact mem_living.mpr ⟨i, (h id).symm.trans hi, ha⟩

theorem Quiet.living (h : Quiet w w') : living w' ⊆ living w := living_congr h.getInstance?

/-- the write of a record that is alive -/
theorem living_put (hi : w.store.getInstance? j.id = some i) (ha : i.status.isTerminal = false) :
    living (w.put j) ⊆ living w := by
  intro id hid
  obtain ⟨k, hk, hk'⟩ := mem_living.mp hid
  rw [World.getInstance?_put] at hk
  split at hk
  · next he => exact mem_living.mpr ⟨i, he ▸ hi, ha⟩
  · exact mem_living.mpr ⟨k, hk, hk'⟩

/-- the write of a record that has ended -/
theorem living_put_ended (ht : j.status.isTerminal = true) :
    living (w.put j) ⊆ (living w).erase j.id := by
  intro id hid
  obtain ⟨k, hk, hk'⟩ := mem_living.mp hid
  rw [World.getInstance?_put] at hk
  split at hk
  · cases hk
    rw [ht] at hk'
    cases hk'
  · next hne => exact Finset.mem_erase.mpr ⟨hne, mem_living.mpr ⟨k, hk, hk'⟩⟩

theorem living_started {d : Definition} : (living (w.started i d)).erase i.id ⊆ living w := by
  intro id hid
  obtain ⟨hne, hid⟩ := Finset.mem_erase.mp hid
  obtain ⟨k, hk, ha⟩ := mem_living.mp hid
  rw [World.started_store, World.getInstance?_put_of_ne hne] at hk
  exact mem_living.mpr ⟨k, hk, ha⟩

/-! ## nodes -/

/-- If a node waits for a child, the child has ended. -/
def Settled (s : Store) (o : Outcome) : Prop :=
  o.status = .waiting → ∀ wait, o.wait = some wait → wait.kind = .subprocess →
    ∀ child, s.getInstance? wait.id = some child → child.status.isTerminal = true

def Quenches (names : Nat → String) (launcher : Launcher) : Prop :=
  ∀ r w id w', Fresh names w → runFrom (launcher r) w = (.ok id, w') →
    (∀ i, w'.store.getInstance? id = some i → i.status.isTerminal = true) → living w' ⊆ living w

theorem ran_living (hl : Starts names env.settings.maxNestingLevel launcher)
    (hq : Quenches names launcher) (hf : Fresh names w)
    (h : Node.Ran (contextOf env launcher i) n w o w') (hs : Settled w'.store o) :
    living w' ⊆ living w := by
  cases h with
  | apart h => exact Quiet.living h.quiet
  | refused _ hc h _ hrun =>
    cases hc
    cases hl.of_error (.of_fresh (h.quiet.fresh hf)) hrun
    exact Quiet.living h.quiet
  | @launched _ _ r v v' _ l _ hc h _ hrun _ h' hstatus hwait =>
    cases hc
    have hended : ∀ child, v'.store.getInstance? l.childId = some child →
        child.status.isTerminal = true := by
      intro child hchild
      exact hs hstatus _ hwait rfl child ((h'.getInstance? l.childId).trans hchild)
    calc living w'
        ⊆ living (v'.link l) := Quiet.living h'.quiet
      _ ⊆ living v' := living_congr fun _ => rfl
      _ ⊆ living v := hq r v _ v' (h.quiet.fresh hf) hrun hended
      _ ⊆ living w := Quiet.living h.quiet

theorem Settled.of_status {s : Store} (h : o.status ≠ .waiting) : Settled s o :=
  fun hw => absurd hw h

theorem Current.alive (h : Current names f fs i w) : i.status.isTerminal = false := by
  rw [h.running]
  rfl

theorem runNode_living (hl : Starts env.idName env.settings.maxNestingLevel launcher)
    (hq : Quenches env.idName launcher) (h : Current env.idName f fs i w)
    (hn : f.definition.findNode? n.id = some n)
    (hrun : runFrom (runNode env launcher i n) w = (.ok (o, j), w')) (hs : Settled w'.store o) :
    living w' ⊆ living w := by
  have hstored : (ended env launcher i n w).store.getInstance? i.id = some i :=
    (ended_stretch hl h hn).1.stored
  have hbegun := begun_quiet env i n w
  have hended := ended_quiet env launcher i n w
  rw [runFrom_runNode env launcher i n hstored] at hrun
  obtain ⟨ho, hput⟩ := Prod.mk.inj hrun
  obtain ⟨rfl, rfl⟩ := Prod.mk.inj (Except.ok.inj ho)
  subst hput
  generalize hj : (recorded env launcher i n w).written (env.time (ended env launcher i n w)) = j
    at hs
  have hid : j.id = i.id := by
    rw [← hj]
    rfl
  have halive : j.status.isTerminal = false := by
    rw [← hj]
    exact h.alive
  -- the record of the instance itself runs, so it is not the child that the node waits for
  have hs' : Settled (nodeRun env launcher i n w).2.world.store (nodeRun env launcher i n w).1 := by
    intro hstatus wait hwait hkind child hchild
    by_cases hself : wait.id = j.id
    · have hterminal := hs hstatus wait hwait hkind j (World.getInstance?_put_self hself.symm)
      exact absurd (halive.symm.trans hterminal) Bool.false_ne_true
    · refine hs hstatus wait hwait hkind child ?_
      rw [World.getInstance?_put_of_ne hself, hended.getInstance?]
      exact hchild
  calc living ((ended env launcher i n w).put j)
      ⊆ living (ended env launcher i n w) := living_put (hid ▸ hstored) h.alive
    _ ⊆ living (nodeRun env launcher i n w).2.world := Quiet.living hended
    _ ⊆ living (begun env i n w) :=
        ran_living hl hq (hbegun.fresh h.ready.fresh) (nodeRun_ran env launcher i n w) hs'
    _ ⊆ living w := Quiet.living hbegun

/-! ## walks -/

/-- A walk goes on, or its instance has ended. -/
def Next.Unblocked : Next → Prop
  | .visit .. => True
  | .stop j => j.status.isTerminal = true

/-- what may be alive behind a node -/
def Next.remaining (w : World) (i : Instance) : Next → Finset String
  | .visit .. => living w
  | .stop _ => (living w).erase i.id

theorem living_announce_ended {now : Instant} (hid : j.id = i.id)
    (ht : j.status.isTerminal = true) :
    living (w.announce (j.written now) now) ⊆ (living w).erase i.id := by
  rw [← hid]
  exact living_put_ended (j := j.written now) ht

theorem not_parked_of_unblocked (hi : w.store.getInstance? i.id = some i) {next : Next}
    (hn : next.Unblocked) :
    runFrom (do return .stop (← park env i o) : Run EngineError Next) w ≠ (.ok next, w') := by
  intro hrun
  rw [runFrom_bind_ok (runFrom_park env hi o)] at hrun
  cases hrun
  cases hn

theorem reconciled_living (h : Current names f fs i w) {link : ChildLink}
    (hc : WaitsForChild w.store i n o child link) {next : Next}
    (hrun : runFrom (afterNode env f.definition i n o) w = (.ok next, w')) (hn : next.Unblocked)
    (hk : n.kind = .subprocess) (ho : o.status = .waiting) :
    Settled w.store o ∧ living w' ⊆ next.remaining w i := by
  have hi := h.storedById
  unfold afterNode at hrun
  rw [ho] at hrun
  simp only at hrun
  rw [if_pos hk] at hrun
  by_cases ht : child.status.isTerminal = true
  · have hsettled : Settled w.store o := by
      intro _ wait hwait _ other hother
      rw [hc.wait] at hwait
      cases hwait
      rw [hc.stored] at hother
      cases hother
      exact ht
    refine ⟨hsettled, ?_⟩
    by_cases hcompleted : child.status = .completed
    · rw [runFrom_bind_ok (runFrom_reconcile_completed env hi hc ht hcompleted)] at hrun
      cases hrun
      refine living_put ?_ h.alive
      show w.store.getInstance? (withOutputs i child link).id = some i
      rw [(sameOrigin_withOutputs i child link).id]
      exact hi
    · rw [runFrom_bind_ok (runFrom_reconcile_failed env hi hc ht hcompleted)] at hrun
      cases hrun
      exact living_announce_ended (sameOrigin_failedWith i child link (env.time w)).id rfl
  · rw [runFrom_bind_ok (runFrom_reconcile_none env hc ht)] at hrun
    exact absurd hrun (not_parked_of_unblocked hi hn)

theorem afterNode_living (h : Current names f fs i w) (hf : Fits w.store i n o) {next : Next}
    (hrun : runFrom (afterNode env f.definition i n o) w = (.ok next, w')) (hn : next.Unblocked) :
    Settled w.store o ∧ living w' ⊆ next.remaining w i := by
  have hdone : ∀ targets : List String, runFrom
      (if n.kind = .finish then return .visit [] i else return .visit targets i :
        Run EngineError Next) w = (.ok next, w') → living w' ⊆ next.remaining w i := by
    intro targets hrun
    split at hrun
    · cases hrun
      exact Finset.Subset.refl _
    · cases hrun
      exact Finset.Subset.refl _
  by_cases hk : n.kind = .subprocess ∧ o.status = .waiting
  · obtain ⟨child, link, hc⟩ := hf.subprocess hk.1 hk.2
    exact reconciled_living h hc hrun hn hk.1 hk.2
  · unfold afterNode at hrun
    cases ho : o.status with
    | completed =>
      rw [ho] at hrun
      exact ⟨.of_status (by rw [ho]; decide), hdone _ hrun⟩
    | breakLoop =>
      rw [ho] at hrun
      exact ⟨.of_status (by rw [ho]; decide), hdone _ hrun⟩
    | continueLoop =>
      rw [ho] at hrun
      exact ⟨.of_status (by rw [ho]; decide), hdone _ hrun⟩
    | waiting =>
      rw [ho] at hrun
      simp only at hrun
      rw [if_neg fun hk' => hk ⟨hk', ho⟩] at hrun
      exact absurd hrun (not_parked_of_unblocked h.storedById hn)
    | failed =>
      rw [ho] at hrun
      simp only at hrun
      rw [runFrom_bind_ok (runFrom_failInstance env h.storedById rfl _)] at hrun
      cases hrun
      exact ⟨.of_status (by rw [ho]; decide), living_announce_ended rfl rfl⟩

theorem failInstance_living (h : Current names f fs i w) {error : String}
    (hrun : runFrom (failInstance env i error) w = (.ok j, w')) :
    living w' ⊆ (living w).erase i.id := by
  rw [runFrom_failInstance env h.storedById rfl] at hrun
  cases hrun
  exact living_announce_ended rfl rfl

/-- what may be alive when a walk has passed a node -/
theorem Passed.living (hl : Starts env.idName env.settings.maxNestingLevel launcher)
    (hq : Quenches env.idName launcher) {next : Next}
    (h : Passed env.idName env launcher f fs w u i next) (hn : next.Unblocked) :
    living u ⊆ next.remaining w i := by
  obtain ⟨n, o, k, v, hn', hnode, hfits, hstretch, hk, hafter, _⟩ := h.passed
  obtain ⟨hsettled, hrest⟩ := afterNode_living (h.current.after hstretch hk) hfits hafter hn
  have hfirst := runNode_living hl hq h.current hn' hnode hsettled
  cases next with
  | visit targets k' => exact hrest.trans hfirst
  | stop k' =>
    rw [Next.remaining, hstretch.origin.id] at hrest
    exact hrest.trans (Finset.erase_subset_erase _ hfirst)

/-- A walk whose instance has ended has left nothing new alive. -/
theorem walk_living (hl : Starts env.idName env.settings.maxNestingLevel launcher)
    (hq : Quenches env.idName launcher) (steps : Nat) (pending : List String)
    (h : Current env.idName f fs i w)
    (hrun : runFrom (walk env launcher f.definition steps pending i) w = (.ok j, w'))
    (ht : j.status.isTerminal = true) : living w' ⊆ (living w).erase i.id := by
  have hwalk : ∃ j w', runFrom (walk env launcher f.definition steps pending i) w = (.ok j, w') ∧
      (j.status.isTerminal = true → living w' ⊆ (living w).erase i.id) := by
    refine walk_induct
      (P := fun i w j w' => j.status.isTerminal = true → living w' ⊆ (living w).erase i.id) hl
      (fun _ hj now ht => living_announce_ended hj.sameOrigin.id ht)
      (fun hp ht => hp.living hl hq ht) (fun hp hrest ht => ?_) steps pending h
    have hlater := hrest ht
    rw [hp.follows.2.origin.id] at hlater
    exact hlater.trans (Finset.erase_subset_erase _ (hp.living hl hq trivial))
  obtain ⟨j', u, hrun', hended⟩ := hwalk
  cases hrun'.symm.trans hrun
  exact hended ht

/-! ## starts -/

theorem startRun_living (hl : Starts env.idName env.settings.maxNestingLevel launcher)
    (hq : Quenches env.idName launcher) (h : Ready env.idName fs w) {r : StartRequest}
    {d : Definition} {pinned : Option String}
    (hrun : startRun env launcher r d pinned w = (.ok j, w')) (ht : j.status.isTerminal = true) :
    living w' ⊆ living w := by
  have hcurrent := started_current h r d pinned
  have hnew : living w' ⊆ (living ((starting env w).started (startedAs env r d pinned w) d)).erase
      (startedAs env r d pinned w).id := by
    unfold startRun at hrun
    cases hd : d.startNode? with
    | none =>
      rw [hd] at hrun
      exact failInstance_living hcurrent hrun
    | some n =>
      rw [hd] at hrun
      exact walk_living hl hq _ _ hcurrent hrun ht
  calc living w'
      ⊆ _ := hnew
    _ ⊆ living (starting env w) := living_started
    _ ⊆ living w := Quiet.living (starting_quiet env w)

theorem startWith_quenches (hl : Starts env.idName env.settings.maxNestingLevel launcher)
    (hq : Quenches env.idName launcher) : Quenches env.idName (startWith env launcher) := by
  intro r w id w' hf hrun hended
  obtain ⟨hlevel, d, pinned, hd⟩ := startWith_requested (congrArg Prod.fst hrun)
  have hready : Ready env.idName [] w := .of_fresh hf
  obtain ⟨j, u, hstart, hj⟩ := startRun_halted hl hready r d pinned
  rw [runFrom_startWith hlevel hd hstart] at hrun
  cases hrun
  have hwalk := startRun_living hl hq hready hstart (hended j hj.stretch.stored)
  exact (living_congr fun _ => rfl).trans hwalk

theorem startWithin_quenches (levels : Nat) : Quenches env.idName (startWithin env levels) := by
  induction levels with
  | zero =>
    intro r w id w' _ hrun
    cases hrun
  | succ levels ih => exact startWith_quenches (startWithin_starts levels) ih

theorem start_quenches : Quenches env.idName (start env) := fun r => startWithin_quenches _ r

/-! ## parents -/

variable {d : Definition} {nodeId : String} {parent : Instance} {link : ChildLink}

theorem continueAfter_living {stored : Instance} (hf : Fresh env.idName w)
    (hi : w.store.getInstance? i.id = some stored) (ha : stored.status.isTerminal = false)
    (hv : stored.version = i.version) {route : Option String}
    (hrun : runFrom (continueAfter env d i n nodeId route) w = (.ok j, w'))
    (ht : j.status.isTerminal = true) : living w' ⊆ (living w).erase i.id := by
  rw [runFrom_continueAfter hi hv] at hrun
  have hwalk := walk_living start_starts start_quenches _ _ (goneOn_current hf hi) hrun ht
  exact hwalk.trans (Finset.erase_subset_erase _ (living_put hi ha))

theorem WaitedFor.alive (h : WaitedFor w.store child parent link) :
    parent.status.isTerminal = false :=
  not_terminal_of_parked (Bool.and_eq_true_iff.mp h.parked).1

theorem wakeParent_living (ho : Orderly env.idName w) (h : WaitedFor w.store child parent link)
    (hrun : runFrom (wakeParent env link child) w = (.ok j, w'))
    (ht : j.status.isTerminal = true) : living w' ⊆ (living w).erase link.parentId := by
  have hid := ho.keyed _ _ h.parent
  have hstored : w.store.getInstance? parent.id = some parent := by
    rw [hid]
    exact h.parent
  have hstored' : w.store.getInstance? (withOutputs parent child link).id = some parent := by
    rw [(sameOrigin_withOutputs parent child link).id]
    exact hstored
  have hversion := (rememberChild_version parent child link.parentNodeId).symm
  unfold wakeParent at hrun
  rw [runFrom_bind_ok (runFrom_getInstance h.parent)] at hrun
  cases hd : definitionOf? w.store parent with
  | none =>
    rw [runFrom_bind_error (runFrom_definitionFor_none hd)] at hrun
    cases hrun
  | some d =>
    rw [runFrom_bind_ok (runFrom_definitionFor hd)] at hrun
    cases hn : d.findNode? link.parentNodeId with
    | none =>
      rw [runFrom_bind_error (runFrom_getNode_none hn)] at hrun
      cases hrun
    | some n =>
      rw [runFrom_bind_ok (runFrom_getNode hn)] at hrun
      by_cases hc : child.status = .completed
      · have hnode := Definition.findNode?_id hn
        rw [runFrom_bind_ok (runFrom_applyChild_completed env parent hnode.symm hc w)] at hrun
        simp only at hrun
        split at hrun
        · next hp =>
          have hnoted : runFrom (persist env (noted parent child link)) w = _ :=
            runFrom_persist env hstored' hversion
          rw [show ({ withOutputs parent child link with waitingFor := none } : Instance) =
            noted parent child link from rfl, hnoted] at hrun
          cases hrun
          rw [show ((noted parent child link).written (env.time w)).status = .paused from hp] at ht
          cases ht
        · have hgone := continueAfter_living ho.fresh hstored' h.alive hversion hrun ht
          rw [(sameOrigin_withOutputs parent child link).id, hid] at hgone
          exact hgone
      · rw [runFrom_bind_ok (runFrom_applyChild_failed env hstored hc)] at hrun
        cases hrun
        rw [← hid]
        exact living_announce_ended (sameOrigin_failedWith parent child link (env.time w)).id rfl

/-- A parent that ends when it is told leaves one living instance less. -/
theorem lockedWake_living (ho : Orderly env.idName w) (h : WaitedFor w.store child parent link)
    (hrun : runFrom (lockedWake env link child) w = (.ok (some j), w'))
    (ht : j.status.isTerminal = true) : (living w').card < (living w).card := by
  have hv : WaitedFor (w.locked link.parentId).store child parent link := h.congr rfl
  rw [runFrom_lockedWake h] at hrun
  rcases hr : runFrom (wakeParent env link child) (w.locked link.parentId) with ⟨r, u⟩
  rw [hr] at hrun
  cases r with
  | error e => cases hrun
  | ok k =>
    cases hrun
    have hsub := wakeParent_living (ho.locked link.parentId) hv hr ht
    have hmem : link.parentId ∈ living w := mem_living.mpr ⟨parent, h.parent, h.alive⟩
    calc (living (u.unlocked link.parentId)).card
        = (living u).card := rfl
      _ ≤ ((living w).erase link.parentId).card := Finset.card_le_card hsub
      _ < (living w).card := Finset.card_erase_lt_of_mem hmem

/-! ## the chain -/

/-- The induction is on the fuel, which stays above the number of living instances. -/
theorem settle_succ (fuel : Nat) (ho : Orderly env.idName w)
    (hc : w.store.getInstance? child.id = some child) (h : (living w).card < fuel) :
    runFrom (settle env (fuel + 1) child) w = runFrom (settle env fuel child) w := by
  induction fuel generalizing child w with
  | zero => exact absurd h (Nat.not_lt_zero _)
  | succ fuel ih =>
    cases settle_round hc with
    | ended _ hrun => rw [hrun, hrun]
    | told hw hrun =>
      rw [hrun, hrun]
      rcases lockedWake_acts ho hw with ⟨e, u, hwake, _⟩ | ⟨j, u, hwake, hdeed, hj⟩
      · rw [runFrom_bind_error hwake, runFrom_bind_error hwake]
      · rw [runFrom_bind_ok hwake, runFrom_bind_ok hwake]
        simp only
        -- the chain goes on only from a parent that has ended, with one living instance less
        by_cases ht : j.status.isTerminal = true
        · have hless := lockedWake_living ho hw hwake ht
          have hu := hdeed.orderly ho
          refine ih hu ?_ (by omega)
          rw [hu.keyed _ _ hj]
          exact hj
        · rw [runFrom_settle_of_alive (Bool.eq_false_iff.mpr ht),
            runFrom_settle_of_alive (Bool.eq_false_iff.mpr ht)]

/-- **The chain of parents is not longer than there are instances.**  Telling them with more fuel
does the same. -/
theorem settle_eq_finish (ho : Orderly env.idName w)
    (hc : w.store.getInstance? child.id = some child) (more : Nat) :
    runFrom (settle env (w.store.instances.length + 1 + more) child) w =
      runFrom (finish env child) w := by
  have hcard : (living w).card ≤ w.store.instances.length := card_storedOf_le _ w
  rw [runFrom_finish]
  induction more with
  | zero => rfl
  | succ more ih =>
    rw [← Nat.add_assoc, settle_succ _ ho hc (by omega)]
    exact ih

end Workflows.Engine
