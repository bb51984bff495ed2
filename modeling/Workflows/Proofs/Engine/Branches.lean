import Workflows.Proofs.Engine.Recursion
import Workflows.Proofs.Engine.Tour

/-!
# Branches

The nodes that wait behind one that is done are kept by a walk, and by nothing else: a walk that
stops at a node that waits drops them, and a resumption begins behind that node alone.

* `Recount`      the tours of an instance that say what is in its record
* `Chronicle`    the same for an instance that does not run
* `runTours`     the tours of an instance that is started, and then resumptions are made

Main statement: in an instance that has completed, every target of a node that is done has been run,
or was pending when a walk stopped at a node that waited (`branches_run_or_dropped`).
-/

namespace Workflows.Engine
variable {env : Env} {launcher : Launcher} {d : Definition} {w w' u : World}
  {id other nodeId : String} {data : Option Json} {i j k child parent : Instance}
  {link : ChildLink} {n : Node} {t : Trail} {ts : List Tour} {r : StartRequest}
  {pinned : Option String}

/-! ## chronicles -/

/-- The tours of an instance recount its record: what they have run is its log, and nothing that
they have selected is lost on their way. -/
structure Recount (ts : List Tour) (i : Instance) : Prop where
  entries : i.entries = ts.flatMap Tour.entries
  accounts : ∀ t ∈ ts, ∀ x ∈ t.done, x.node.kind ≠ .finish →
    ∀ id ∈ t.definition.nextNodes x.node x.route, t.trail.Accounts id
  /-- only a walk that waits leaves anything, unless the instance has failed -/
  left : ∀ t ∈ ts, t.trail.left = [] ∨ t.status = .waiting ∨ i.status = .failed

structure Chronicle (ts : List Tour) (i : Instance) : Prop extends Recount ts i where
  resting : i.status ≠ .running

theorem Chronicle.keep (h : Chronicle ts i) (hl : j.log = i.log) (hr : j.status ≠ .running)
    (hf : i.status ≠ .failed ∨ j.status = .failed) : Chronicle ts j := by
  refine ⟨⟨(entries_of_log hl).trans h.entries, h.accounts, fun t ht => ?_⟩, hr⟩
  rcases h.left t ht with hleft | hwait | hfailed
  · exact .inl hleft
  · exact .inr (.inl hwait)
  · exact .inr (.inr (hf.resolve_left fun hne => hne hfailed))

/-- One more walk.  The targets of the node behind which it begins are pending then. -/
theorem Recount.tour (h : Recount ts i) (hi : i.status ≠ .failed) {behind : Option Done}
    {pending : List String} (hb : ∀ x ∈ behind, d.nextNodes x.node x.route = pending)
    (hl : k.log = i.log) (ht : Charted d pending k t j) (hj : j.status ≠ .running) :
    Chronicle (ts ++ [⟨d, behind, t, j.status⟩]) j := by
  refine ⟨⟨?_, fun tour htour => ?_, fun tour htour => ?_⟩, hj⟩
  · rw [ht.entries, entries_of_log hl, h.entries, List.flatMap_append, List.flatMap_singleton]
    rfl
  · rcases List.mem_append.mp htour with hold | hnew
    · exact h.accounts tour hold
    · rw [List.mem_singleton.mp hnew]
      intro x hx hk id hid
      rcases List.mem_append.mp hx with hx | hx
      · have hpending : id ∈ pending := hb x (Option.mem_toList.mp hx) ▸ hid
        exact ht.pending id hpending
      · obtain ⟨v, hv, hvx⟩ := List.mem_filterMap.mp hx
        exact ht.selected v hv x hvx hk id hid
  · rcases List.mem_append.mp htour with hold | hnew
    · rcases h.left tour hold with hleft | hwait | hfailed
      · exact .inl hleft
      · exact .inr (.inl hwait)
      · exact absurd hfailed hi
    · rw [List.mem_singleton.mp hnew]
      rcases ht.status with ⟨_, hleft⟩ | hwait | hfailed
      · exact .inl hleft
      · exact .inr (.inl hwait)
      · exact .inr (.inr hfailed)

theorem Chronicle.continued (h : Chronicle ts i) (hi : i.status ≠ .failed) {route : Option String}
    (hl : k.log = i.log) (ht : Charted d (d.nextNodes n route) k t j) (hj : j.status ≠ .running) :
    Chronicle (ts ++ [⟨d, some ⟨n, route⟩, t, j.status⟩]) j := by
  refine h.toRecount.tour hi (fun x hx => ?_) hl ht hj
  cases hx
  rfl

/-! ## an instance that is told of an end -/

theorem not_failed_of_parked (h : i.status.isParked = true) : i.status ≠ .failed := by
  intro hs
  rw [hs] at h
  cases h

theorem withOutputs_log (i child : Instance) (link : ChildLink) :
    (withOutputs i child link).log = i.log := rememberChild_log i child link.parentNodeId

theorem goOnOrNote_chronicle (hf : Fresh env.idName w)
    (hp : w.store.getInstance? parent.id = some parent) (hparked : parent.status.isParked = true)
    (h : Chronicle ts parent) (child : Instance) (link : ChildLink) (d : Definition) (n : Node) :
    ∃ j u, runFrom
        (if (withOutputs parent child link).status = .paused then
          persist env (noted parent child link)
        else continueAfter env d (withOutputs parent child link) n link.parentNodeId none) w =
          (.ok j, u) ∧
      Has parent.id j u ∧
      Chronicle (ts ++ if parent.status ≠ .paused then
        toursOf (runFrom (continueTour env d (withOutputs parent child link) n link.parentNodeId
          none) w) else []) j := by
  have hstatus : (withOutputs parent child link).status = parent.status :=
    rememberChild_status parent child link.parentNodeId
  have hversion : parent.version = (withOutputs parent child link).version :=
    (rememberChild_version parent child link.parentNodeId).symm
  have hid : (withOutputs parent child link).id = parent.id :=
    (sameOrigin_withOutputs parent child link).id
  rw [hstatus]
  by_cases hpaused : parent.status = .paused
  · have hnoted : (noted parent child link).id = parent.id :=
      (sameOrigin_noted parent child link).id
    have hstored : w.store.getInstance? (noted parent child link).id = some parent := by
      rw [hnoted]
      exact hp
    rw [if_pos hpaused, if_neg (fun hne => hne hpaused), List.append_nil]
    refine ⟨_, _, runFrom_persist env hstored hversion, World.getInstance?_put_self hnoted, ?_⟩
    refine h.keep (withOutputs_log parent child link) ?_ (.inl (not_failed_of_parked hparked))
    show (withOutputs parent child link).status ≠ .running
    rw [hstatus]
    exact h.resting
  · have hstored : w.store.getInstance? (withOutputs parent child link).id = some parent := by
      rw [hid]
      exact hp
    obtain ⟨j, t, u, hrun, hj, hr, ht⟩ :=
      continueTour_charted hf hstored hversion d n link.parentNodeId none
    rw [hid] at hj
    rw [if_neg hpaused, if_pos hpaused, hrun]
    exact ⟨j, u, runFrom_fst (continueTour_eq_continueAfter d _ n _ none) hrun, hj,
      h.continued (not_failed_of_parked hparked) (withOutputs_log parent child link) ht hr⟩

theorem wakeParent_chronicle (ho : Orderly env.idName w)
    (hw : WaitedFor w.store child parent link) (h : Chronicle ts parent) :
    (∃ e, runFrom (wakeParent env link child) w = (.error e, w) ∧
      wakeTours env parent child link w = []) ∨
    ∃ j u, runFrom (wakeParent env link child) w = (.ok j, u) ∧ Has link.parentId j u ∧
      Chronicle (ts ++ wakeTours env parent child link w) j := by
  have hid : parent.id = link.parentId := ho.keyed _ _ hw.parent
  have hparked : parent.status.isParked = true := (Bool.and_eq_true_iff.mp hw.parked).1
  have hstored : w.store.getInstance? parent.id = some parent := by
    rw [hid]
    exact hw.parent
  unfold wakeTours
  cases hd : definitionOf? w.store parent with
  | none =>
    rw [runFrom_wakeParent_undefined hw.parent hd]
    exact .inl ⟨_, rfl, rfl⟩
  | some d =>
    simp only
    cases hn : d.findNode? link.parentNodeId with
    | none =>
      rw [runFrom_wakeParent_missing hw.parent hd hn]
      exact .inl ⟨_, rfl, rfl⟩
    | some n =>
      have hnode := Definition.findNode?_id hn
      rw [runFrom_wakeParent hw.parent hd hn, ← hid]
      right
      by_cases hc : child.status = .completed
      · obtain ⟨j, u, hrun, hj, hchronicle⟩ :=
          goOnOrNote_chronicle ho.fresh hstored hparked h child link d n
        rw [runFrom_bind_ok (runFrom_applyChild_completed env parent hnode.symm hc w)]
        simp only [hc, true_and]
        exact ⟨j, u, hrun, hj, hchronicle⟩
      · rw [runFrom_bind_ok (runFrom_applyChild_failed env hstored hc)]
        simp only [hc, false_and, if_false, List.append_nil]
        have hfailed := sameOrigin_failedWith parent child link (env.time w)
        refine ⟨_, _, rfl, World.getInstance?_put_self hfailed.id, ?_⟩
        exact h.keep (rememberChild_log parent child link.parentNodeId) (ne_of_terminal rfl rfl)
          (.inr rfl)

/-- One round of telling.  It is about the instance itself, if that is the parent; any other
instance keeps its record. -/
theorem lockedWake_chronicle (ho : Orderly env.idName w)
    (hw : WaitedFor w.store child parent link) (hi : Has id i w) (h : Chronicle ts i) :
    (∃ e u, runFrom (lockedWake env link child) w = (.error e, u) ∧ Has id i u ∧
      (if link.parentId = id then wakeTours env parent child link (w.locked link.parentId)
        else []) = []) ∨
    ∃ j u k, runFrom (lockedWake env link child) w = (.ok (some j), u) ∧
      Orderly env.idName u ∧ Has link.parentId j u ∧ Has id k u ∧
      Chronicle (ts ++ if link.parentId = id then
        wakeTours env parent child link (w.locked link.parentId) else []) k := by
  have hacts := lockedWake_acts ho hw
  by_cases he : link.parentId = id
  · subst he
    cases Option.some.inj (hw.parent.symm.trans hi)
    simp only [if_true]
    have hv : WaitedFor (w.locked link.parentId).store child i link := hw.congr rfl
    rw [runFrom_lockedWake hw] at hacts ⊢
    rcases wakeParent_chronicle (ho.locked link.parentId) hv h with
      ⟨e, hrun, htours⟩ | ⟨j, u, hrun, hj, hchronicle⟩
    · rw [hrun]
      exact .inl ⟨e, _, rfl, hi, htours⟩
    · rw [hrun] at hacts ⊢
      rcases hacts with ⟨e, u', herror, _⟩ | ⟨j', u', hok, hdeed, hj'⟩
      · cases herror
      · cases hok
        exact .inr ⟨j, _, j, rfl, hdeed.orderly ho, hj', hj', hchronicle⟩
  · rw [if_neg he, List.append_nil]
    rcases hacts with ⟨e, u, hrun, hidle, _⟩ | ⟨j, u, hrun, hdeed, hj⟩
    · exact .inl ⟨e, u, hrun, hi.quiet hidle.quiet, rfl⟩
    · have hother : (Act.wake link child).subject? ≠ some id := fun hs => he (Option.some.inj hs)
      exact .inr ⟨j, u, i, hrun, hdeed.orderly ho, hj, hdeed.has_other h.resting hother hi, h⟩

/-- The end of an instance is told upward.  The induction is on the rounds. -/
theorem settle_chronicle (fuel : Nat) (ho : Orderly env.idName w)
    (hc : w.store.getInstance? child.id = some child) (hi : Has id i w) (h : Chronicle ts i) :
    ∃ j, Has id j (runFrom (settle env fuel child) w).2 ∧
      Chronicle (ts ++ settleTours env id fuel child w) j := by
  induction fuel generalizing child w ts i with
  | zero =>
    refine ⟨i, hi, ?_⟩
    rw [settleTours, List.append_nil]
    exact h
  | succ fuel ih =>
    have hround : Round env child w := settle_round hc
    unfold settleTours
    cases hround with
    | ended hnone hrun =>
      have hwaits : waitedFor? w.store child = none := by
        refine Option.eq_none_iff_forall_ne_some.mpr fun waiter hwaiter => ?_
        exact hnone _ _ ((waitedFor?_eq_some hc).mp hwaiter)
      rw [hrun, hwaits, List.append_nil]
      exact ⟨i, hi, h⟩
    | @told parent link hw hrun =>
      rw [hrun, (waitedFor?_eq_some hc).mpr hw]
      simp only
      rcases lockedWake_chronicle ho hw hi h with
        ⟨e, u, hwake, hkept, htours⟩ | ⟨j, u, k, hwake, hu, hj, hk, hchronicle⟩
      · rw [htours, hwake, runFrom_bind_error hwake, List.append_nil, List.append_nil]
        exact ⟨i, hkept, h⟩
      · have hstored : u.store.getInstance? j.id = some j := by
          rw [hu.keyed _ _ hj]
          exact hj
        rw [hwake, runFrom_bind_ok hwake, ← List.append_assoc]
        exact ih hu hstored hk hchronicle

/-! ## an instance that is resumed, or another one -/

theorem withData_log (i : Instance) (nodeId : String) (data : Option Json) :
    (withData i nodeId data).log = i.log := by
  cases data with
  | none => rfl
  | some v => rfl

theorem resume_chronicle (ho : Orderly env.idName w) (hi : Has id i w) (h : Chronicle ts i)
    (other nodeId : String) (data : Option Json) :
    ∃ j, Has id j (runFrom (resume env other nodeId data) w).2 ∧
      Chronicle (ts ++ resumeTours env id other nodeId data w) j := by
  unfold resumeTours
  cases hr : resumable? w.store other nodeId with
  | none =>
    have hrefused : ∀ k d n, ¬ Resumable w.store other nodeId k d n := fun k d n hk =>
      nomatch hr.symm.trans (resumable?_eq_some.mpr hk)
    obtain ⟨e, -, hsame⟩ := resume_refused ho hrefused data
    refine ⟨i, ?_, ?_⟩
    · unfold Has
      rw [hsame]
      exact hi
    · rw [List.append_nil]
      exact h
  | some found =>
    obtain ⟨k, d, n⟩ := found
    have hk : Resumable w.store other nodeId k d n := resumable?_eq_some.mp hr
    obtain rfl : k.id = other := ho.keyed _ _ hk.stored
    obtain ⟨j, u, hresumed⟩ := resume_walks ho hk data
    have hsame := sameOrigin_withData k nodeId data
    have hstored : (w.locked k.id).store.getInstance? (withData k nodeId data).id = some k := by
      rw [hsame.id]
      exact hk.stored
    obtain ⟨j', t, u', hrun, _, hrest, ht⟩ := continueTour_charted (ho.locked k.id).fresh hstored
      (withData_version k nodeId data).symm d n nodeId (data.bind routeOf)
    cases hresumed.locked.symm.trans
      (runFrom_fst (continueTour_eq_continueAfter d _ n nodeId _) hrun)
    have hj : (u.unlocked k.id).store.getInstance? j.id = some j := by
      rw [hresumed.orderly.keyed _ _ hresumed.stored]
      exact hresumed.stored
    simp only [hrun]
    rw [hresumed.told, runFrom_finish, ← List.append_assoc]
    by_cases he : k.id = id
    · subst he
      cases Option.some.inj (hk.stored.symm.trans hi)
      rw [if_pos rfl]
      exact settle_chronicle _ hresumed.orderly hj hresumed.stored
        (h.continued (not_failed_of_parked hk.parked) (withData_log i nodeId data) ht hrest)
    · have hbegun : Has id i (resumedAt env k nodeId data w) := by
        have hne : id ≠ (resumedAs env k nodeId data w).id :=
          fun hid => he (hid.trans hsame.id).symm
        exact Has.put_of_ne (w := w.locked k.id) hi hne
      have hwalked : Has id i u :=
        Moves.has_resting hresumed.halted.stretch.moves h.resting hbegun
      rw [if_neg he, List.append_nil]
      exact settle_chronicle _ hresumed.orderly hj (hwalked.quiet (Quiet.unlocked u k.id)) h

/-! ## an instance that is started -/

theorem recount_nil (hl : i.log = []) : Recount [] i := by
  refine ⟨?_, fun t ht => absurd ht List.not_mem_nil, fun t ht => absurd ht List.not_mem_nil⟩
  unfold Instance.entries
  rw [hl]
  rfl

theorem startRun_chronicle (hf : Fresh env.idName w)
    (hd : requested? w.store r = some (d, pinned)) :
    ∃ j u, startRun env (start env) r d pinned w = (.ok j, u) ∧ Has (env.idName w.ids) j u ∧
      Chronicle (startTours env r w) j := by
  have hready : Ready env.idName [] w := .of_fresh hf
  have hcurrent := started_current hready r d pinned
  have hid : (startedAs env r d pinned w).id = env.idName w.ids := hcurrent.id
  unfold startRun startTours
  rw [hd]
  simp only
  cases d.startNode? with
  | none =>
    have hrun := runFrom_failInstance env hcurrent.storedById rfl
      ("Workflow " ++ d.id ++ " has no start node")
    exact ⟨_, _, hrun, World.getInstance?_put_self hid, recount_nil rfl, ne_of_terminal rfl rfl⟩
  | some n =>
    obtain ⟨j, t, u, htrail, hj, ht⟩ :=
      trail_charted start_starts env.settings.maxStepsPerTraversal [n.id] hcurrent
    have htour : runFrom (tourFrom env (start env) d none [n.id] (startedAs env r d pinned w))
        ((starting env w).started (startedAs env r d pinned w) d) =
          (.ok (j, ⟨d, none, t, j.status⟩), u) := runFrom_bind_ok htrail _
    have hstored : Has (startedAs env r d pinned w).id j u := hj.stretch.stored
    rw [hid] at hstored
    have hbehind : ∀ x ∈ (none : Option Done), d.nextNodes x.node x.route = [n.id] :=
      fun x hx => absurd hx (Option.not_mem_none x)
    have halive : (startedAs env r d pinned w).status ≠ .failed := (ne_of_terminal rfl rfl).symm
    have hnew : Recount [] (startedAs env r d pinned w) := recount_nil rfl
    simp only [htour]
    exact ⟨j, u, runFrom_fst (tourFrom_eq_walkFrom d none [n.id] _) htour, hstored,
      hnew.tour halive hbehind rfl ht hj.status⟩

theorem start_chronicle (hf : Fresh env.idName w) (h : (runFrom (start env r) w).1 = .ok id) :
    ∃ j, Has id j (runFrom (start env r) w).2 ∧ Chronicle (startTours env r w) j := by
  rw [start_eq_startWith r hf] at h ⊢
  obtain ⟨hlevel, d, pinned, hd⟩ := startWith_requested h
  obtain ⟨j, u, hrun, hj, hchronicle⟩ := startRun_chronicle hf hd
  have hstart := runFrom_startWith hlevel hd hrun
  rw [hstart] at h ⊢
  cases h
  exact ⟨j, hj, hchronicle⟩

/-! ## runs -/

structure Resumption where
  time : Instant
  id : String
  nodeId : String
  data : Option Json

def Resumption.call (c : Resumption) : Call := ⟨c.time, .resume c.id c.nodeId c.data⟩

/-- the tours of an instance that resumptions make one after another -/
def resumedTours (env : Env) (id : String) : World → List Resumption → List Tour
  | _, [] => []
  | w, c :: rest => resumeTours { env with epoch := c.time } id c.id c.nodeId c.data w ++
      resumedTours env id (c.call.from env w) rest

/-- the world after a start and resumptions -/
def afterRun (env : Env) (w : World) (time : Instant) (r : StartRequest)
    (resumptions : List Resumption) : World :=
  after env w (⟨time, .start r⟩ :: resumptions.map Resumption.call)

/-- the tours of the instance that is started -/
def runTours (env : Env) (w : World) (time : Instant) (r : StartRequest) (id : String)
    (resumptions : List Resumption) : List Tour :=
  startTours { env with epoch := time } r w ++
    resumedTours env id (Call.from env w ⟨time, .start r⟩) resumptions

theorem resumed_chronicle (resumptions : List Resumption) (ho : Orderly env.idName w)
    (hi : Has id i w) (h : Chronicle ts i) :
    ∃ j, Has id j (after env w (resumptions.map Resumption.call)) ∧
      Chronicle (ts ++ resumedTours env id w resumptions) j := by
  induction resumptions generalizing w ts i with
  | nil =>
    refine ⟨i, hi, ?_⟩
    rw [resumedTours, List.append_nil]
    exact h
  | cons c rest ih =>
    have ho' : Orderly env.idName (c.call.from env w) := (c.call.performed env ho).orderly ho
    have hstep := @resume_chronicle { env with epoch := c.time } w id i ts ho hi h c.id c.nodeId
      c.data
    obtain ⟨j, hj, hchronicle⟩ := hstep
    unfold resumedTours
    rw [← List.append_assoc]
    exact ih ho' hj hchronicle

theorem run_chronicle (ho : Orderly env.idName w) {time : Instant}
    (h : (runFrom (start { env with epoch := time } r) w).1 = .ok id)
    (resumptions : List Resumption) :
    ∃ i, Has id i (afterRun env w time r resumptions) ∧
      Chronicle (runTours env w time r id resumptions) i := by
  have ho' : Orderly env.idName (Call.from env w ⟨time, .start r⟩) :=
    (Call.performed env ho ⟨time, .start r⟩).orderly ho
  obtain ⟨i, hi, hchronicle⟩ := @start_chronicle { env with epoch := time } w id r ho.fresh h
  have hstarted : Has id i (Call.from env w ⟨time, .start r⟩) := by
    show Has id i (runFrom (start { env with epoch := time } r >>= fun _ => pure ()) w).2
    rw [runFrom_bind_ok (Prod.ext h rfl)]
    exact hi
  exact resumed_chronicle resumptions ho' hstarted hchronicle

/-- a node that is done, in the log, is one behind which a walk has gone on -/
theorem Recount.done (h : Recount ts i) {e : LogEntry} (he : e ∈ i.log)
    (hd : e.status.isDone = true) : ∃ t ∈ ts, ∃ x ∈ t.done, x.node.id = e.nodeId := by
  have hentry : (e.nodeId, e.status) ∈ ts.flatMap Tour.entries := by
    rw [← h.entries]
    exact List.mem_map_of_mem he
  obtain ⟨t, ht, hentry⟩ := List.mem_flatMap.mp hentry
  obtain ⟨v, hv, heq⟩ := List.mem_map.mp hentry
  obtain ⟨hid, hstatus⟩ := Prod.mk.inj heq
  have hdone : v.done? = some ⟨v.node, v.outcome.route⟩ := by
    unfold Visited.done?
    rw [hstatus, if_pos hd]
  exact ⟨t, ht, _, List.mem_append_right _ (List.mem_filterMap.mpr ⟨v, hv, hdone⟩), hid⟩

theorem Recount.ran (h : Recount ts i) {tour : Tour} (ht : tour ∈ ts)
    (hid : id ∈ tour.trail.visits.map (·.node.id)) : ∃ e ∈ i.log, e.nodeId = id := by
  obtain ⟨v, hv, rfl⟩ := List.mem_map.mp hid
  have hentry : v.entry ∈ i.entries := by
    rw [h.entries]
    exact List.mem_flatMap.mpr ⟨tour, ht, List.mem_map_of_mem hv⟩
  obtain ⟨e, he, heq⟩ := List.mem_map.mp hentry
  exact ⟨e, he, congrArg Prod.fst heq⟩

/-- **No branch is lost but where a walk waits.**  In an instance that has completed, every target
that was selected behind a node that is done has been run, or was pending when the walk that had
selected it stopped at a node that waited. -/
theorem branches_run_or_dropped (env : Env) (w : World) (ho : Orderly env.idName w)
    (time : Instant) (r : StartRequest) (id : String)
    (hstart : (runFrom (start { env with epoch := time } r) w).1 = .ok id)
    (resumptions : List Resumption) (i : Instance)
    (hi : (afterRun env w time r resumptions).store.getInstance? id = some i)
    (hc : i.status = .completed) :
    i.log.map (fun e => (e.nodeId, e.status)) =
      (runTours env w time r id resumptions).flatMap Tour.entries ∧
    (∀ e ∈ i.log, e.status.isDone = true →
      ∃ t ∈ runTours env w time r id resumptions, ∃ x ∈ t.done, x.node.id = e.nodeId) ∧
    ∀ t ∈ runTours env w time r id resumptions, ∀ x ∈ t.done, x.node.kind ≠ .finish →
      ∀ target ∈ t.definition.nextNodes x.node x.route,
        (∃ e ∈ i.log, e.nodeId = target) ∨ t.status = .waiting ∧ target ∈ t.trail.left := by
  obtain ⟨j, hj, hchronicle⟩ := run_chronicle ho hstart resumptions
  cases Option.some.inj (hj.symm.trans hi)
  refine ⟨hchronicle.entries, fun e he hd => hchronicle.toRecount.done he hd, ?_⟩
  intro t ht x hx hk target htarget
  rcases hchronicle.accounts t ht x hx hk target htarget with hran | hleft
  · exact .inl (hchronicle.toRecount.ran ht hran)
  · rcases hchronicle.left t ht with hnone | hwait | hfailed
    · rw [hnone] at hleft
      exact absurd hleft List.not_mem_nil
    · exact .inr ⟨hwait, hleft⟩
    · rw [hc] at hfailed
      cases hfailed

/-! ### a fork -/

namespace Sample

/-- a screen, and an assignment beside it -/
def fork : Definition where
  id := "fork"
  name := "fork"
  description := none
  status := .published
  version := 1
  subprocessCompatible := true
  nodes := [⟨"begin", .start, none, .null⟩, ⟨"left", .screen, none, .null⟩,
    ⟨"right", .assignment, none, .null⟩]
  edges := [⟨"to-left", "begin", "left", none, none⟩, ⟨"to-right", "begin", "right", none, none⟩]

def forkWorld : World := { store := ({} : Store).saveWorkflow fork }

theorem forkWorld_orderly : Orderly names forkWorld :=
  orderly_of_empty rfl ⟨names_injective, fun _ _ => rfl, fun _ _ => rfl⟩

theorem fork_started :
    (runFrom (start { Sample.env with epoch := ⟨0, 0⟩ } (.of "fork")) forkWorld).1 = .ok "i" := by
  decide +kernel

/-- the resumption of the first screen, for which the instance waits -/
def leftDone : Resumption := ⟨⟨1, 0⟩, "i", "left", none⟩

theorem fork_waits : ((afterRun Sample.env forkWorld ⟨0, 0⟩ (.of "fork") []).store.getInstance?
    "i").map (fun i => (i.status, i.waitingFor.map (·.id))) = some (.waiting, some "left") := by
  decide +kernel

theorem fork_completes : ((afterRun Sample.env forkWorld ⟨0, 0⟩ (.of "fork")
    [leftDone]).store.getInstance? "i").map (fun i => (i.status, i.log.map (·.nodeId))) =
      some (.completed, ["begin", "left"]) := by
  decide +kernel

end Sample

/-- the second branch was pending when the first walk stopped -/
example : (runTours Sample.env Sample.forkWorld ⟨0, 0⟩ (.of "fork") "i" [Sample.leftDone]).map
    (fun t => (t.status, t.trail.left)) = [(.waiting, ["right"]), (.completed, [])] := by
  decide +kernel

theorem branches_run_or_dropped_fork : ∃ i,
    (afterRun Sample.env Sample.forkWorld ⟨0, 0⟩ (.of "fork")
      [Sample.leftDone]).store.getInstance? "i" = some i ∧ i.status = .completed ∧
    i.log.map (fun e => (e.nodeId, e.status)) =
      (runTours Sample.env Sample.forkWorld ⟨0, 0⟩ (.of "fork") "i"
        [Sample.leftDone]).flatMap Tour.entries := by
  obtain ⟨i, hi, hends⟩ := Option.map_eq_some_iff.mp Sample.fork_completes
  have hc : i.status = .completed := congrArg Prod.fst hends
  have hkept := branches_run_or_dropped Sample.env _ Sample.forkWorld_orderly ⟨0, 0⟩ (.of "fork")
    "i" Sample.fork_started [Sample.leftDone] i hi hc
  exact ⟨i, hi, hc, hkept.1⟩

/-- The instance waits in the first branch, is resumed there, and completes; the second branch is
selected behind the start node and is never run. -/
theorem branch_dropped : Orderly Sample.env.idName Sample.forkWorld ∧
    (runFrom (start { Sample.env with epoch := ⟨0, 0⟩ } (.of "fork")) Sample.forkWorld).1 =
      .ok "i" ∧
    ((afterRun Sample.env Sample.forkWorld ⟨0, 0⟩ (.of "fork") []).store.getInstance? "i").map
      (fun i => (i.status, i.waitingFor.map (·.id))) = some (.waiting, some "left") ∧
    ((afterRun Sample.env Sample.forkWorld ⟨0, 0⟩ (.of "fork")
      [Sample.leftDone]).store.getInstance? "i").map (fun i => (i.status, i.log.map (·.nodeId))) =
        some (.completed, ["begin", "left"]) ∧
    Sample.fork.nextNodes ⟨"begin", .start, none, .null⟩ none = ["left", "right"] :=
  ⟨Sample.forkWorld_orderly, Sample.fork_started, Sample.fork_waits, Sample.fork_completes,
    by decide +kernel⟩

end Workflows.Engine
