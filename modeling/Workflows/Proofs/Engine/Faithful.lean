import Workflows.Proofs.Engine.Announced
import Workflows.Proofs.Engine.Branches
import Workflows.Proofs.Engine.Downfall

/-!
# Events and logs

A node tells that it starts and how it ends, and then its record gets an entry.  Between the two a
subprocess node walks its child, and the child tells the same of its own nodes.  So the events of
one instance are to be read apart from those of all others.

* `Traces`   entries of a log, and what was told of the nodes that they are about
* `Traced`   two worlds, with what was told of nodes between them, of one instance and of new ones
* `Logged`   the same, of any instances
* `Narrates`   a launcher that tells what its instances log

Main statement: events are a faithful trace (`faithful_trace`).
-/

namespace Workflows

/-! ## entries and their events -/

/-- the start of a node, or its end -/
def Happening.isOfRun : Happening → Bool
  | .nodeStarted .. | .nodeCompleted .. | .nodeWaiting .. | .nodeFailed .. => true
  | _ => false

/-- what was told of the nodes of an instance -/
def runsOf (id : String) (es : List Event) : List Happening :=
  (eventsOf id es).filter Happening.isOfRun

/-- the end of a node as its entry has it -/
inductive LogEntry.Ends (e : LogEntry) : Happening → Prop
  | completed (millis : Nat) (h : e.status.isDone = true) : e.Ends (.nodeCompleted e.nodeId millis)
  | waiting (wait : Wait) (h : e.status = .waiting) : e.Ends (.nodeWaiting e.nodeId wait)
  | failed (h : e.status = .failed) : e.Ends (.nodeFailed e.nodeId (e.error.getD ""))

/-- Each entry has a start and one end behind it, in the order of the entries, and nothing else is
told of nodes. -/
inductive Traces : List LogEntry → List Happening → Prop
  | nil : Traces [] []
  | cons {e : LogEntry} {es : List LogEntry} {h : Happening} {hs : List Happening} (he : e.Ends h)
    (ht : Traces es hs) : Traces (e :: es) (.nodeStarted e.nodeId e.nodeType :: h :: hs)

theorem Traces.append {es fs : List LogEntry} {hs gs : List Happening} (h : Traces es hs)
    (h' : Traces fs gs) : Traces (es ++ fs) (hs ++ gs) := by
  induction h with
  | nil => exact h'
  | cons he _ ih => exact .cons he ih

theorem runsOf_append (id : String) (es fs : List Event) :
    runsOf id (es ++ fs) = runsOf id es ++ runsOf id fs := by
  unfold runsOf
  rw [eventsOf_append, List.filter_append]

theorem runsOf_self {id : String} {h : Happening} {time : Instant} (hh : h.isOfRun = true) :
    runsOf id [⟨id, h, time⟩] = [h] := by
  unfold runsOf
  rw [eventsOf_self, List.filter_cons_of_pos hh]
  rfl

theorem runsOf_of_ne {id other : String} {h : Happening} {time : Instant} (hne : id ≠ other) :
    runsOf id [⟨other, h, time⟩] = [] := by
  unfold runsOf
  rw [eventsOf_of_ne hne]
  rfl

theorem runsOf_of_not {id : String} {es : List Event}
    (hn : ∀ e ∈ es, e.happening.isOfRun = false) : runsOf id es = [] := by
  unfold runsOf
  refine List.filter_eq_nil_iff.mpr fun h hh => ?_
  obtain ⟨e, he, _, rfl⟩ := mem_eventsOf.mp hh
  exact Bool.eq_false_iff.mp (hn e he)

theorem Happening.isOfRun_of_isNote {h : Happening} (hn : h.isNote) : h.isOfRun = false := by
  cases h <;> first | rfl | cases hn

theorem Outcome.happening_isOfRun (o : Outcome) (nodeId : String) :
    (o.happening nodeId).isOfRun = true := by
  unfold happening
  split <;> rfl

/-- an outcome that waits says what it waits for, so its event is that of its status -/
theorem Outcome.ends_happening {o : Outcome} (hw : o.status = .waiting → o.wait.isSome = true)
    {e : LogEntry} (hs : e.status = o.status) (he : e.error = o.error) :
    e.Ends (o.happening e.nodeId) := by
  unfold happening
  cases ho : o.status with
  | waiting =>
    obtain ⟨wait, hwait⟩ := Option.isSome_iff_exists.mp (hw ho)
    rw [hwait]
    exact .waiting wait (hs.trans ho)
  | failed =>
    rw [← he]
    exact .failed (hs.trans ho)
  | completed => exact .completed 0 (by rw [hs, ho]; rfl)
  | breakLoop => exact .completed 0 (by rw [hs, ho]; rfl)
  | continueLoop => exact .completed 0 (by rw [hs, ho]; rfl)

namespace Engine
variable {names : Nat → String} {env : Env} {launcher : Launcher} {f : Frame} {fs : List Frame}
  {u v w w' : World} {i j child parent : Instance} {link : ChildLink} {d : Definition} {n : Node}
  {o : Outcome} {id nodeId : String} {own : Option String}

/-- the log of an instance, empty before its start -/
def logOf (w : World) (id : String) : List LogEntry :=
  ((w.store.getInstance? id).map (·.log)).getD []

theorem logOf_of_stored (hi : w.store.getInstance? id = some i) : logOf w id = i.log := by
  unfold logOf
  rw [hi]
  rfl

theorem logOf_congr (h : w'.store.getInstance? id = w.store.getInstance? id) :
    logOf w' id = logOf w id := by
  unfold logOf
  rw [h]

theorem logOf_put_self (hid : j.id = id) : logOf (w.put j) id = j.log :=
  logOf_of_stored (World.getInstance?_put_self hid)

theorem logOf_put_of_ne (hne : id ≠ j.id) : logOf (w.put j) id = logOf w id :=
  logOf_congr (World.getInstance?_put_of_ne hne)

/-! ## what is told of nodes between two worlds -/

/-- What was told of the nodes of an instance is what its log has got. -/
def Logs (id : String) (es : List Event) (w w' : World) : Prop :=
  ∃ entries, logOf w' id = logOf w id ++ entries ∧ Traces entries (runsOf id es)

theorem Logs.trans {es fs : List Event} (h : Logs id es u v) (h' : Logs id fs v w) :
    Logs id (es ++ fs) u w := by
  obtain ⟨entries, hlog, ht⟩ := h
  obtain ⟨more, hlog', ht'⟩ := h'
  refine ⟨entries ++ more, by rw [hlog', hlog, List.append_assoc], ?_⟩
  rw [runsOf_append]
  exact ht.append ht'

theorem Logs.silent {es : List Event} (hl : logOf w' id = logOf w id) (he : runsOf id es = []) :
    Logs id es w w' := by
  refine ⟨[], by rw [hl, List.append_nil], ?_⟩
  rw [he]
  exact .nil

def Logged (w w' : World) : Prop :=
  ∃ es : List Event, w'.events.toList = w.events.toList ++ es ∧ ∀ id, Logs id es w w'

theorem Logged.trans (h : Logged u v) (h' : Logged v w) : Logged u w := by
  obtain ⟨es, hes, hlogs⟩ := h
  obtain ⟨fs, hfs, hlogs'⟩ := h'
  exact ⟨es ++ fs, by rw [hfs, hes, List.append_assoc], fun id => (hlogs id).trans (hlogs' id)⟩

/-- No instance is lost, and nothing is told of the nodes of an instance that was there before, but
of one. -/
structure Traced (own : Option String) (w w' : World) : Prop where
  stored : ∀ id i, w.store.getInstance? id = some i → ∃ j, w'.store.getInstance? id = some j
  trace : ∃ es : List Event, w'.events.toList = w.events.toList ++ es ∧
    (∀ id i, own ≠ some id → w.store.getInstance? id = some i → runsOf id es = []) ∧
    ∀ id, Logs id es w w'

namespace Traced

theorem logged (h : Traced own w w') : Logged w w' := by
  obtain ⟨es, hes, _, hlogs⟩ := h.trace
  exact ⟨es, hes, hlogs⟩

theorem trans (h : Traced own u v) (h' : Traced own v w) : Traced own u w := by
  obtain ⟨es, hes, hstill, hlogs⟩ := h.trace
  obtain ⟨fs, hfs, hstill', hlogs'⟩ := h'.trace
  refine ⟨fun id i hi => ?_, es ++ fs, by rw [hfs, hes, List.append_assoc], fun id i ho hi => ?_,
    fun id => (hlogs id).trans (hlogs' id)⟩
  · obtain ⟨j, hj⟩ := h.stored id i hi
    exact h'.stored id j hj
  · obtain ⟨j, hj⟩ := h.stored id i hi
    rw [runsOf_append, hstill id i ho hi, hstill' id j ho hj]
    rfl

/-- what is told of an instance that was not there before -/
theorem hide (h : Traced (some id) w w') (hnew : w.store.getInstance? id = none) :
    Traced none w w' := by
  obtain ⟨es, hes, hstill, hlogs⟩ := h.trace
  refine ⟨h.stored, es, hes, fun other i _ hi => hstill other i ?_ hi, hlogs⟩
  intro he
  cases he
  cases hnew.symm.trans hi

/-- a change that tells nothing of nodes, and leaves logs alone -/
theorem silent {es : List Event} (he : w'.events.toList = w.events.toList ++ es)
    (hn : ∀ e ∈ es, e.happening.isOfRun = false)
    (hs : ∀ id i, w.store.getInstance? id = some i → ∃ j, w'.store.getInstance? id = some j)
    (hl : ∀ id, logOf w' id = logOf w id) : Traced own w w' :=
  ⟨hs, es, he, fun _ _ _ _ => runsOf_of_not hn, fun id => .silent (hl id) (runsOf_of_not hn)⟩

theorem of_same (he : w'.events = w.events)
    (hi : ∀ id, w'.store.getInstance? id = w.store.getInstance? id) : Traced own w w' := by
  have hevents : w'.events.toList = w.events.toList ++ [] := by rw [he, List.append_nil]
  exact silent hevents nofun (fun id i h => ⟨i, (hi id).trans h⟩) fun id => logOf_congr (hi id)

theorem refl (w : World) : Traced own w w := of_same rfl fun _ => rfl

theorem aside (h : Aside w w') : Traced own w w' := by
  obtain ⟨es, hes, hnote⟩ := h.events
  exact silent hes (fun e he => Happening.isOfRun_of_isNote (hnote e he))
    (fun id i hi => ⟨i, (h.getInstance? id).trans hi⟩) fun id => logOf_congr (h.getInstance? id)

theorem stored_put (w : World) (j : Instance) (id : String) (i : Instance)
    (hi : w.store.getInstance? id = some i) : ∃ k, (w.put j).store.getInstance? id = some k := by
  rw [World.getInstance?_put]
  split
  · exact ⟨j, rfl⟩
  · exact ⟨i, hi⟩

theorem log_put (hl : logOf w j.id = j.log) (id : String) : logOf (w.put j) id = logOf w id := by
  by_cases he : id = j.id
  · rw [logOf_put_self he.symm, he, hl]
  · exact logOf_put_of_ne he

/-- a record that is written with its old log -/
theorem put (hi : w.store.getInstance? j.id = some i) (hl : j.log = i.log) :
    Traced own w (w.put j) :=
  silent (List.append_nil _).symm nofun (stored_put w j)
    (log_put ((logOf_of_stored hi).trans hl.symm))

theorem announce (hi : w.store.getInstance? j.id = some i) (hl : j.log = i.log) (time : Instant) :
    Traced own w (w.announce j time) := by
  refine silent Array.toList_push (fun e he => ?_) (stored_put w j)
    (log_put ((logOf_of_stored hi).trans hl.symm))
  rw [List.mem_singleton.mp he]
  rfl

theorem started (hi : w.store.getInstance? i.id = none) (hl : i.log = []) :
    Traced own w (w.started i d) := by
  have hnone : logOf w i.id = i.log := by
    unfold logOf
    rw [hi, hl]
    rfl
  refine silent Array.toList_push (fun e he => ?_) (stored_put w i) (log_put hnone)
  rw [List.mem_singleton.mp he]
  rfl

end Traced

/-! ## nodes -/

/-- A launcher tells of the nodes of new instances only, and tells what they log. -/
def Narrates (names : Nat → String) (launcher : Launcher) : Prop :=
  ∀ r w id w', Fresh names w → runFrom (launcher r) w = (.ok id, w') → Traced none w w'

theorem ran_traced (hl : Starts names env.settings.maxNestingLevel launcher)
    (ht : Narrates names launcher) (hf : Fresh names w)
    (h : Node.Ran (contextOf env launcher i) n w o w') : Traced none w w' := by
  cases h with
  | apart h => exact .aside h
  | refused _ hc h _ hrun =>
    cases hc
    cases hl.of_error (.of_fresh (h.quiet.fresh hf)) hrun
    exact .aside h
  | @launched _ _ r v v' _ l _ hc h _ hrun _ h' =>
    cases hc
    have hbefore : Traced none w v := .aside h
    have hlaunched : Traced none v v' := ht r v _ v' (h.quiet.fresh hf) hrun
    have hlinked : Traced none v' (v'.link l) := .of_same rfl fun _ => rfl
    exact ((hbefore.trans hlaunched).trans hlinked).trans (.aside h')

theorem Fits.named {s : Store} {p : Instance} (h : Fits s p n o) (ho : o.status = .waiting) :
    o.wait.isSome = true := by
  by_cases hk : n.kind = .subprocess
  · obtain ⟨_, _, hc⟩ := h.subprocess hk ho
    rw [hc.wait]
    rfl
  · exact (h.other hk).named ho

/-- A node tells of its start and its end, and leaves one entry. -/
theorem runNode_traced (hl : Starts env.idName env.settings.maxNestingLevel launcher)
    (ht : Narrates env.idName launcher) (h : Current env.idName f fs i w)
    (hn : f.definition.findNode? n.id = some n)
    (hrun : runFrom (runNode env launcher i n) w = (.ok (o, j), w')) :
    Traced (some i.id) w w' := by
  obtain ⟨hstretch, hfits⟩ := ended_stretch hl h hn
  have hbegun := begun_quiet env i n w
  have hended := ended_quiet env launcher i n w
  have hran : Traced none (begun env i n w) (nodeRun env launcher i n w).2.world :=
    ran_traced hl ht (hbegun.fresh h.ready.fresh) (nodeRun_ran env launcher i n w)
  obtain ⟨es, hes, hstill, hlogs⟩ := hran.trace
  rw [runFrom_runNode env launcher i n hstretch.stored] at hrun
  obtain ⟨-, rfl⟩ := Prod.mk.inj hrun
  have hstored := h.storedById
  have hid : ((recorded env launcher i n w).written
    (env.time (ended env launcher i n w))).id = i.id := rfl
  -- what is told between the start and the end is of new instances, so not of this one
  have hidle : runsOf i.id es = [] :=
    hstill i.id i (fun he => nomatch he) ((hbegun.getInstance? i.id).trans hstored)
  refine ⟨fun id k hk => ?_, [⟨i.id, .nodeStarted n.id n.kind.name, env.time w⟩] ++ es ++
    [⟨i.id, (nodeRun env launcher i n w).1.happening n.id,
      env.time (nodeRun env launcher i n w).2.world⟩], ?_, fun id k hne hk => ?_, fun id => ?_⟩
  · obtain ⟨k', hk'⟩ := hran.stored id k ((hbegun.getInstance? id).trans hk)
    exact Traced.stored_put _ _ id k' ((hended.getInstance? id).trans hk')
  · show (Array.push (nodeRun env launcher i n w).2.world.events _).toList = _
    rw [Array.toList_push, hes]
    show (Array.push w.events _).toList ++ es ++ _ = _
    rw [Array.toList_push]
    simp only [List.append_assoc]
    rfl
  · have hother : id ≠ i.id := fun he => hne (congrArg some he.symm)
    rw [runsOf_append, runsOf_append, runsOf_of_ne hother, runsOf_of_ne hother,
      hstill id k (fun he => nomatch he) ((hbegun.getInstance? id).trans hk)]
    rfl
  · by_cases he : id = i.id
    · subst he
      refine ⟨[⟨n.id, n.kind.name, (nodeRun env launcher i n w).1.status,
        env.time (begun env i n w), env.time (nodeRun env launcher i n w).2.world,
        (nodeRun env launcher i n w).1.error, (nodeRun env launcher i n w).1.output,
        (nodeRun env launcher i n w).1.retries⟩], ?_, ?_⟩
      · rw [logOf_put_self hid, logOf_of_stored hstored]
        rfl
      · rw [runsOf_append, runsOf_append, runsOf_self rfl, hidle,
          runsOf_self (Outcome.happening_isOfRun _ _)]
        exact .cons (Outcome.ends_happening hfits.named rfl rfl) .nil
    · obtain ⟨entries, hlog, htraces⟩ := hlogs id
      refine ⟨entries, ?_, ?_⟩
      · rw [logOf_put_of_ne fun hother => he (hother.trans hid),
          logOf_congr (hended.getInstance? id), hlog, logOf_congr (hbegun.getInstance? id)]
      · rw [runsOf_append, runsOf_append, runsOf_of_ne he, runsOf_of_ne he, List.append_nil]
        exact htraces

/-! ## walks -/

theorem Halt.log {s : Store} (h : Halt s i j) : j.log = i.log := by
  cases h with
  | wait => rfl
  | complete => rfl
  | fail => rfl
  | @failWith child link => exact rememberChild_log i child link.parentNodeId

theorem announce_traced (hi : w.store.getInstance? i.id = some i) (ho : i.SameOrigin j)
    (hl : j.log = i.log) (now : Instant) : Traced own w (w.announce (j.written now) now) := by
  have hstored : w.store.getInstance? (j.written now).id = some i := by
    rw [(ho.written now).id]
    exact hi
  exact .announce hstored hl now

theorem put_traced (hi : w.store.getInstance? i.id = some i) (ho : i.SameOrigin j)
    (hl : j.log = i.log) (now : Instant) : Traced own w (w.put (j.written now)) := by
  have hstored : w.store.getInstance? (j.written now).id = some i := by
    rw [(ho.written now).id]
    exact hi
  exact .put hstored hl

/-- behind a node nothing is told of nodes -/
theorem Aftermath.traced {next : Next} (ha : Aftermath i w next w')
    (hi : w.store.getInstance? i.id = some i) : Traced own w w' := by
  cases ha with
  | done => exact .refl w
  | @taken child link targets now =>
    exact put_traced hi (sameOrigin_withOutputs i child link) (withOutputs_log i child link) now
  | last now hj => exact announce_traced hi hj.sameOrigin hj.log now

theorem Passed.traced {next : Next} (hl : Starts env.idName env.settings.maxNestingLevel launcher)
    (ht : Narrates env.idName launcher) (h : Passed env.idName env launcher f fs w u i next) :
    Traced (some f.instanceId) w u := by
  obtain ⟨n, o, k, v, hn, hrun, _, hstretch, hk, _, ha⟩ := h.passed
  have hnode := runNode_traced hl ht h.current hn hrun
  rw [h.current.id] at hnode
  exact hnode.trans (ha.traced (h.current.after hstretch hk).storedById)

theorem walk_traced (hl : Starts env.idName env.settings.maxNestingLevel launcher)
    (ht : Narrates env.idName launcher) (steps : Nat) (pending : List String)
    (h : Current env.idName f fs i w) :
    ∃ j w', runFrom (walk env launcher f.definition steps pending i) w = (.ok j, w') ∧
      Traced (some f.instanceId) w w' := by
  refine walk_induct (P := fun _ w _ w' => Traced (some f.instanceId) w w') hl ?_
    (fun h => h.traced hl ht) (fun h hrest => (h.traced hl ht).trans hrest) steps pending h
  exact fun h hj now => announce_traced h.storedById hj.sameOrigin hj.log now

/-! ## starts -/

theorem startRun_traced (hl : Starts env.idName env.settings.maxNestingLevel launcher)
    (ht : Narrates env.idName launcher) (h : Ready env.idName fs w) (r : StartRequest)
    (d : Definition) (pinned : Option String) :
    ∃ j u, startRun env launcher r d pinned w = (.ok j, u) ∧
      Traced (some (env.idName w.ids))
        ((starting env w).started (startedAs env r d pinned w) d) u := by
  have hcurrent := started_current h r d pinned
  unfold startRun
  cases d.startNode? with
  | none =>
    have hstored := hcurrent.storedById
    exact ⟨_, _, runFrom_failInstance env hstored rfl _,
      announce_traced hstored (Halt.fail (s := w.store) _ _).sameOrigin rfl _⟩
  | some n => exact walk_traced hl ht _ _ hcurrent

theorem startWith_narrates (hl : Starts env.idName env.settings.maxNestingLevel launcher)
    (ht : Narrates env.idName launcher) : Narrates env.idName (startWith env launcher) := by
  intro r w id w' hf hrun
  obtain ⟨hlevel, d, pinned, hd⟩ := startWith_requested (congrArg Prod.fst hrun)
  obtain ⟨j, u, hstart, hu⟩ := startRun_traced hl ht (.of_fresh hf) r d pinned
  rw [runFrom_startWith hlevel hd hstart] at hrun
  cases hrun
  have hunstored : (starting env w).store.getInstance? (env.idName w.ids) = none :=
    hf.unstored _ (Nat.le_refl _)
  have hbegin : Traced (some (env.idName w.ids)) w (starting env w) := .of_same rfl fun _ => rfl
  have hstarted : Traced (some (env.idName w.ids)) (starting env w)
      ((starting env w).started (startedAs env r d pinned w) d) := .started hunstored rfl
  have hrelease : Traced (some (env.idName w.ids)) u (u.unlocked (env.idName w.ids)) :=
    .of_same rfl fun _ => rfl
  exact Traced.hide (((hbegin.trans hstarted).trans hu).trans hrelease) hunstored

theorem startWithin_narrates (levels : Nat) : Narrates env.idName (startWithin env levels) := by
  induction levels with
  | zero =>
    intro r w id w' _ hrun
    cases hrun
  | succ levels ih => exact startWith_narrates (startWithin_starts levels) ih

theorem start_narrates : Narrates env.idName (start env) := fun r => startWithin_narrates _ r

/-! ## parents -/

theorem Logged.of_same (he : w'.events = w.events)
    (hi : ∀ id, w'.store.getInstance? id = w.store.getInstance? id) : Logged w w' :=
  (Traced.of_same he hi : Traced none w w').logged

theorem Logged.refl (w : World) : Logged w w := .of_same rfl fun _ => rfl

theorem Logged.idle (h : Idle w w') : Logged w w' :=
  .of_same h.events fun id => by rw [h.store]

theorem continueAfter_logged {stored : Instance} (hf : Fresh env.idName w)
    (hi : w.store.getInstance? i.id = some stored) (hv : stored.version = i.version)
    (hl : i.log = stored.log) (n : Node) (route : Option String) :
    Logged w (runFrom (continueAfter env d i n nodeId route) w).2 := by
  have hgone : Traced (some i.id) w (goneOn env i nodeId w) :=
    .announce (j := (goingOn i nodeId (env.time w)).written (env.time w)) hi hl (env.time w)
  obtain ⟨j, w', hrun, hwalk⟩ := walk_traced start_starts start_narrates
    env.settings.maxStepsPerTraversal (d.nextNodes n route) (goneOn_current hf hi)
  rw [runFrom_continueAfter hi hv]
  show Logged w (runFrom (walk _ _ _ _ _ _) (goneOn env i nodeId w)).2
  rw [hrun]
  exact (hgone.trans hwalk).logged

theorem goOnOrNote_logged (hf : Fresh env.idName w)
    (hp : w.store.getInstance? parent.id = some parent) (child : Instance) (link : ChildLink)
    (d : Definition) (n : Node) :
    Logged w (runFrom
      (if (withOutputs parent child link).status = .paused then
        persist env (noted parent child link)
      else continueAfter env d (withOutputs parent child link) n link.parentNodeId none) w).2 := by
  have hlog := withOutputs_log parent child link
  have hversion : parent.version = (withOutputs parent child link).version :=
    (rememberChild_version parent child link.parentNodeId).symm
  split
  · have hnoted := sameOrigin_noted parent child link
    have hstored : w.store.getInstance? (noted parent child link).id = some parent := by
      rw [hnoted.id]
      exact hp
    have hput : Traced none w (w.put ((noted parent child link).written (env.time w))) :=
      put_traced hp hnoted hlog (env.time w)
    rw [runFrom_persist env hstored hversion]
    exact hput.logged
  · have hstored : w.store.getInstance? (withOutputs parent child link).id = some parent := by
      rw [(sameOrigin_withOutputs parent child link).id]
      exact hp
    exact continueAfter_logged hf hstored hversion hlog n none

theorem wakeParent_logged (ho : Orderly env.idName w) (h : WaitedFor w.store child parent link) :
    Logged w (runFrom (wakeParent env link child) w).2 := by
  have hid := ho.keyed _ _ h.parent
  have hstored : w.store.getInstance? parent.id = some parent := by
    rw [hid]
    exact h.parent
  cases hd : definitionOf? w.store parent with
  | none =>
    rw [runFrom_wakeParent_undefined h.parent hd]
    exact .refl w
  | some d =>
    cases hn : d.findNode? link.parentNodeId with
    | none =>
      rw [runFrom_wakeParent_missing h.parent hd hn]
      exact .refl w
    | some n =>
      have hnode := Definition.findNode?_id hn
      rw [runFrom_wakeParent h.parent hd hn]
      by_cases hc : child.status = .completed
      · rw [runFrom_bind_ok (runFrom_applyChild_completed env parent hnode.symm hc w)]
        exact goOnOrNote_logged ho.fresh hstored child link d n
      · have hfailed : Traced none w (w.announce
            ((failedWith parent child link (env.time w)).written (env.time w)) (env.time w)) :=
          announce_traced hstored (sameOrigin_failedWith parent child link (env.time w))
            (rememberChild_log parent child link.parentNodeId) (env.time w)
        rw [runFrom_bind_ok (runFrom_applyChild_failed env hstored hc)]
        exact hfailed.logged

theorem lockedWake_logged (ho : Orderly env.idName w) (h : WaitedFor w.store child parent link) :
    Logged w (runFrom (lockedWake env link child) w).2 := by
  have hv : WaitedFor (w.locked link.parentId).store child parent link := h.congr rfl
  have hbefore : Logged w (w.locked link.parentId) := .of_same rfl fun _ => rfl
  have hwake := wakeParent_logged (ho.locked link.parentId) hv
  rw [runFrom_lockedWake h]
  exact (hbefore.trans hwake).trans (.of_same rfl fun _ => rfl)

theorem settle_logged (fuel : Nat) (ho : Orderly env.idName w)
    (hc : w.store.getInstance? child.id = some child) :
    Logged w (runFrom (settle env fuel child) w).2 := by
  -- a round wakes one parent, and the next one begins with that parent as the child
  induction fuel generalizing child w with
  | zero => exact .refl w
  | succ fuel ih =>
    cases settle_round hc with
    | ended _ hrun =>
      rw [hrun]
      exact .refl w
    | told hw hrun =>
      have hwake := lockedWake_logged ho hw
      rw [hrun]
      rcases lockedWake_acts ho hw with ⟨e, u, herror, _⟩ | ⟨j, u, hok, hdeed, hj⟩
      · rw [runFrom_bind_error herror]
        rw [herror] at hwake
        exact hwake
      · rw [runFrom_bind_ok hok]
        rw [hok] at hwake
        have hu := hdeed.orderly ho
        refine hwake.trans (ih hu ?_)
        rw [hu.keyed _ _ hj]
        exact hj

/-! ## operations -/

theorem start_logged (ho : Orderly env.idName w) (r : StartRequest) :
    Logged w (runFrom ((Operation.start r).run env) w).2 := by
  show Logged w (runFrom (Engine.start env r >>= fun _ => pure ()) w).2
  rcases start_starts [] w r ⟨ho.fresh, fun _ hf => nomatch hf⟩ with
    ⟨e, hrun, _⟩ | ⟨id, w', hrun, _⟩
  · rw [runFrom_bind_error hrun]
    exact .refl w
  · rw [runFrom_bind_ok hrun]
    exact (start_narrates r w id w' ho.fresh hrun).logged

theorem resume_logged (ho : Orderly env.idName w) (id nodeId : String) (data : Option Json) :
    Logged w (runFrom (resume env id nodeId data) w).2 := by
  have hperformed := resume_performed ho id nodeId data
  change Performed _ _ w _ (runFrom (resume env id nodeId data) w).1
    (runFrom (resume env id nodeId data) w).2 at hperformed
  generalize (runFrom (resume env id nodeId data) w).1 = result at hperformed
  cases hperformed with
  | refused hidle => exact .idle hidle
  | resumed hdeed =>
    obtain ⟨v, scene, hquiet, hopening, -⟩ := hdeed
    cases hopening with
    | @resume _ i d _ data now hi hp hd hn =>
      obtain ⟨n, hn⟩ := hn
      rw [hquiet.getInstance?] at hi
      rw [(Kept.of_core hquiet.core).definitionOf?] at hd
      have hresumable : Resumable w.store i.id nodeId i d n := ⟨hi, hp, hd, hn⟩
      obtain ⟨j, u, hresumed⟩ := resume_walks ho hresumable data
      have hsame := sameOrigin_withData i nodeId data
      have hstored : (w.locked i.id).store.getInstance? (withData i nodeId data).id = some i := by
        rw [hsame.id]
        exact hi
      have hwalk : Logged (w.locked i.id) (runFrom (continueAfter env d (withData i nodeId data) n
          nodeId (data.bind routeOf)) (w.locked i.id)).2 :=
        continueAfter_logged (ho.locked i.id).fresh hstored (withData_version i nodeId data).symm
          (withData_log i nodeId data) n _
      rw [hresumed.locked] at hwalk
      have hbefore : Logged w (w.locked i.id) := .of_same rfl fun _ => rfl
      have hafter : Logged u (u.unlocked i.id) := .of_same rfl fun _ => rfl
      have hfound : (u.unlocked i.id).store.getInstance? j.id = some j := by
        rw [hresumed.orderly.keyed _ _ hresumed.stored]
        exact hresumed.stored
      rw [hresumed.told, runFrom_finish]
      exact ((hbefore.trans hwalk).trans hafter).trans (settle_logged _ hresumed.orderly hfound)

/-- a state that is announced under the lock of its instance -/
theorem lockedAnnounce_logged (hi : w.store.getInstance? i.id = some i) (ho : i.SameOrigin j)
    (hl : j.log = i.log) (now : Instant) :
    Logged w (((w.locked i.id).announce (j.written now) now).unlocked i.id) := by
  have hi' : (w.locked i.id).store.getInstance? i.id = some i := hi
  have hbefore : Logged w (w.locked i.id) := .of_same rfl fun _ => rfl
  have hannounced : Traced none (w.locked i.id) _ := announce_traced hi' ho hl now
  exact (hbefore.trans hannounced.logged).trans (.of_same rfl fun _ => rfl)

theorem cancel_logged (ho : Orderly env.idName w) (id : String) :
    Logged w (runFrom (cancel env id) w).2 := by
  have hperformed := cancel_performed ho id
  change Performed _ _ w _ (runFrom (cancel env id) w).1 (runFrom (cancel env id) w).2 at hperformed
  generalize (runFrom (cancel env id) w).1 = result at hperformed
  cases hperformed with
  | refused hidle => exact .idle hidle
  | cancelled hdeed =>
    obtain ⟨v, scene, hquiet, hopening, -⟩ := hdeed
    cases hopening with
    | @cancel _ i now hi ht =>
      rw [hquiet.getInstance?] at hi
      have hsame := sameOrigin_setStatus i .cancelled (env.time w)
      have hannounced := lockedAnnounce_logged hi hsame rfl (env.time w)
      have hwrites : Writes env.idName env.settings.maxNestingLevel w
          (((w.locked i.id).announce ((i.setStatus .cancelled (env.time w)).written
            (env.time w)) (env.time w)).unlocked i.id) :=
        .record hi (hsame.written _) rfl rfl rfl
      rw [runFrom_cancel hi ht, runFrom_finish]
      refine hannounced.trans (settle_logged _ (hwrites.orderly ho) ?_)
      exact World.getInstance?_put_self rfl

theorem pause_logged (ho : Orderly env.idName w) (id : String) :
    Logged w (runFrom (pause env id) w).2 := by
  have hperformed := pause_performed ho id
  change Performed _ _ w _ (runFrom (pause env id) w).1 (runFrom (pause env id) w).2 at hperformed
  generalize (runFrom (pause env id) w).1 = result at hperformed
  cases hperformed with
  | refused hidle => exact .idle hidle
  | held hidle => exact .idle hidle
  | paused hdeed =>
    obtain ⟨v, scene, hquiet, hopening, -⟩ := hdeed
    cases hopening with
    | @pause _ i now hi ht hp =>
      rw [hquiet.getInstance?] at hi
      rw [runFrom_pause hi (Bool.eq_false_iff.mp ht) hp]
      exact lockedAnnounce_logged hi (sameOrigin_held i (env.time w)) rfl (env.time w)

/-- A single step tells nothing of its node, and leaves an entry. -/
theorem step_logged (ho : Orderly env.idName w) (id nodeId : String) :
    ∃ es, (runFrom ((Operation.step id nodeId).run env) w).2.events.toList =
        w.events.toList ++ es ∧
      ∀ other, other ≠ id → Logs other es w (runFrom ((Operation.step id nodeId).run env) w).2 := by
  have hperformed := step_performed ho id nodeId
  generalize (runFrom ((Operation.step id nodeId).run env) w).1 = result at hperformed
  cases hperformed with
  | refused hidle =>
    obtain ⟨es, hes, hlogs⟩ := Logged.idle hidle
    exact ⟨es, hes, fun other _ => hlogs other⟩
  | @stepped _ _ i d n o vars t t' now v _ hi hid hd hn _ _ _ =>
    subst hid
    have hran : Node.Ran (contextOf env (start env) { i with currentNodeId := some n.id }) n
        (w.locked i.id) (stepRun env i n (w.locked i.id)).1
        (stepRun env i n (w.locked i.id)).2.world :=
      Node.attempt_ran _ n (sessionOf env i.vars (w.locked i.id))
    have hbefore : Traced none w (w.locked i.id) := .of_same rfl fun _ => rfl
    have hrun := hbefore.trans
      (ran_traced start_starts start_narrates (ho.locked i.id).fresh hran)
    obtain ⟨es, hes, hlogs⟩ := hrun.logged
    show ∃ es, (runFrom (stepNode env i.id nodeId >>= fun _ => pure ()) w).2.events.toList =
        w.events.toList ++ es ∧ ∀ other, other ≠ i.id →
      Logs other es w (runFrom (stepNode env i.id nodeId >>= fun _ => pure ()) w).2
    rw [runFrom_bind_ok (runFrom_stepNode ho hi hd hn)]
    refine ⟨es, hes, fun other hne => ?_⟩
    obtain ⟨entries, hlog, ht⟩ := hlogs other
    have hput : logOf ((stepRun env i n (w.locked i.id)).2.world.put
        (stepRecord env i n (w.locked i.id))) other =
          logOf (stepRun env i n (w.locked i.id)).2.world other := logOf_put_of_ne hne
    exact ⟨entries, hput.trans hlog, ht⟩

/-- **What an operation logs is what it tells of nodes**, but for the instance of a single step. -/
theorem run_logged (ho : Orderly env.idName w) (op : Operation) :
    ∃ es, (runFrom (op.run env) w).2.events.toList = w.events.toList ++ es ∧
      ∀ id, (∀ nodeId, op ≠ .step id nodeId) → Logs id es w (runFrom (op.run env) w).2 := by
  have hlogged : Logged w (runFrom (op.run env) w).2 → ∃ es,
      (runFrom (op.run env) w).2.events.toList = w.events.toList ++ es ∧
        ∀ id, (∀ nodeId, op ≠ .step id nodeId) → Logs id es w (runFrom (op.run env) w).2 := by
    rintro ⟨es, hes, hlogs⟩
    exact ⟨es, hes, fun id _ => hlogs id⟩
  cases op with
  | start r => exact hlogged (start_logged ho r)
  | resume id nodeId data => exact hlogged (resume_logged ho id nodeId data)
  | pause id => exact hlogged (pause_logged ho id)
  | cancel id => exact hlogged (cancel_logged ho id)
  | step id nodeId =>
    obtain ⟨es, hes, hlogs⟩ := step_logged ho id nodeId
    refine ⟨es, hes, fun other hne => hlogs other ?_⟩
    rintro rfl
    exact hne nodeId rfl

theorem after_nil (env : Env) (w : World) : after env w [] = w := rfl

theorem after_single (env : Env) (w : World) (c : Call) : after env w [c] = c.from env w := rfl

/-- **Events are a faithful trace.**  The states that were announced of an instance, one after
another from its start, lead to the stored one, and at most one of them is an end.  The entries that
an operation other than a single step leaves in a log are what it tells of the nodes of the
instance: for each of them, in their order, the start of its node and one end of it. -/
theorem faithful_trace (env : Env) (w : World) (hw : w.store.instances = [])
    (hf : Fresh env.idName w) (calls : List Call) :
    (∃ es, (after env w calls).events.toList = w.events.toList ++ es ∧
      ∀ id i, (after env w calls).store.getInstance? id = some i →
        replay .running (eventsOf id es) = i.status ∧ endings (eventsOf id es) ≤ 1) ∧
    ∀ c : Call, ∃ es, (c.from env (after env w calls)).events.toList =
        (after env w calls).events.toList ++ es ∧
      ∀ id, (∀ nodeId, c.operation ≠ .step id nodeId) → ∃ entries,
        logOf (c.from env (after env w calls)) id = logOf (after env w calls) id ++ entries ∧
          Traces entries (runsOf id es) := by
  have ho : Orderly env.idName w := orderly_of_empty hw hf
  refine ⟨?_, fun c => ?_⟩
  · obtain ⟨es, hes, htale⟩ := after_told ho calls
    refine ⟨es, hes, fun id i hi => ?_⟩
    have hnew : w.store.getInstance? id = none :=
      Option.eq_none_iff_forall_ne_some.mpr fun k hk => not_stored_of_empty hw hk
    have hid := htale id
    rw [statusOf_of_none hnew, statusOf_of_stored hi] at hid
    refine ⟨hid.replay, ?_⟩
    have hcount := hid.endings
    have hone : i.status.isTerminal.toNat ≤ 1 := Bool.toNat_le _
    omega
  · exact @run_logged { env with epoch := c.time } _ (after_orderly calls ho) c.operation

/-- the parent has logged two nodes, and waits -/
theorem faithful_trace_start :
    ∃ i, (after Sample.env Sample.world Sample.calls).store.getInstance? "i" = some i ∧
      i.log.length = 2 ∧ i.status = .waiting ∧
      replay .running (eventsOf "i"
        (after Sample.env Sample.world Sample.calls).events.toList) = .waiting ∧
      Traces i.log (runsOf "i" (after Sample.env Sample.world Sample.calls).events.toList) := by
  have hwaits : ((after Sample.env Sample.world Sample.calls).store.getInstance? "i").map
      (fun i => (i.log.length, i.status)) = some (2, .waiting) := by
    decide +kernel
  obtain ⟨i, hi, hboth⟩ := Option.map_eq_some_iff.mp hwaits
  obtain ⟨hlength, hstatus⟩ := Prod.mk.inj hboth
  have hstates := (faithful_trace Sample.env Sample.world rfl Sample.fresh Sample.calls).1
  have hlogs := (faithful_trace Sample.env Sample.world rfl Sample.fresh []).2
    ⟨⟨0, 0⟩, .start (.of "parent")⟩
  have hnone : Sample.world.events.toList = [] := rfl
  rw [after_nil, ← after_single, hnone] at hlogs
  rw [hnone] at hstates
  generalize hv : after Sample.env Sample.world Sample.calls = v at hi hstates hlogs ⊢
  have hv' : after Sample.env Sample.world [⟨⟨0, 0⟩, .start (.of "parent")⟩] = v := hv
  rw [hv'] at hlogs
  obtain ⟨es, hes, hstate⟩ := hstates
  obtain ⟨fs, hfs, hlog⟩ := hlogs
  obtain ⟨entries, hentries, ht⟩ := hlog "i" fun _ he => nomatch he
  have hempty : logOf Sample.world "i" = [] := rfl
  rw [hempty, List.nil_append, logOf_of_stored hi] at hentries
  rw [List.nil_append] at hes hfs
  rw [← hes] at hstate
  rw [← hfs, ← hentries] at ht
  exact ⟨i, hi, hlength, hstatus, (hstate "i" i hi).1.trans hstatus, ht⟩

end Engine
end Workflows
