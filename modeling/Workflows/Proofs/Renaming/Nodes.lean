import Workflows.Proofs.Renaming.Sessions

/-!
# Nodes under other names

A node that looks at no generated id does the same in both runs, up to the names.  There is one lemma for each handler:
the settings are the same, what is looked at is the same, and what is handed on corresponds.

Main statement: handlers of all kinds but that of a subprocess, which starts a child (`handle_accords`).
-/

namespace Workflows

namespace Renaming
open Node NodeRun
variable {ρ : Renaming} {s s' : Session} {c c' : NodeContext} {n : Node}

/-! ## branches and assignments -/

theorem decision_accords (hs : ρ.Sessions s s')
    (hlooks : ρ.Unseen ((n.read? DecisionSettings.decode).elim [] fun t => t.condition.elim [] (textLooks s.vars))) :
    ρ.Accords ρ.Outcomes (n.decision c) (n.decision c') s s' := by
  refine .settings hs fun t ht => .demand hs fun condition hcondition => .vars ?_
  obtain ⟨hcondition, -⟩ := Option.filter_eq_some_iff.mp hcondition
  rw [ht, Option.elim_some, hcondition] at hlooks
  have hsame : condition? s'.vars condition = condition? s.vars condition := hs.vars.condition? hlooks
  dsimp only
  rw [hsame]
  cases condition? s.vars condition with
  | some b => exact .pure hs (.refl rfl)
  | none => exact (Accords.warn hs _ _).next fun _ _ u u' _ hu => .pure hu (.refl rfl)

theorem switch_accords (hs : ρ.Sessions s s')
    (hlooks : ρ.Unseen ((n.read? SwitchSettings.decode).elim [] (·.looks s.vars))) :
    ρ.Accords ρ.Outcomes n.switch n.switch s s' := by
  refine .settings hs fun t ht => .demand hs fun subject hsubject => .vars ?_
  rw [ht, Option.elim_some, SwitchSettings.looks, hsubject, Option.elim_some] at hlooks
  have hvalue := hs.vars.resolve (.str subject) hlooks.left
  have hsame : resolve s'.vars (.str subject) = resolve s.vars (.str subject) :=
    hvalue.eq_of_free (hlooks.right _ (List.mem_singleton.mpr rfl))
  rw [hsame]
  exact .pure hs (.refl rfl)

theorem assign_accords (as : List VariableAssignment) (assigned assigned' : Vars) (hs : ρ.Sessions s s')
    (hassigned : ρ.Binds assigned assigned') (hlooks : ρ.Unseen (assignLooks as s.vars)) :
    ρ.Accords ρ.Binds (assign as assigned) (assign as assigned') s s' := by
  induction as generalizing assigned assigned' s s' with
  | nil => exact .pure hs hassigned
  | cons a as ih =>
    rw [assignLooks] at hlooks
    refine .vars ?_
    rw [hs.vars.evaluateDeep hlooks.left]
    have hvalue : ρ.Value (evaluateDeep s.vars a.value) (evaluateDeep s.vars a.value) := Value.refl _
    have hset := hs.withVar a.name hvalue
    exact ih _ _ hset (hassigned.insert a.name hvalue) hlooks.right

theorem assignment_accords (hs : ρ.Sessions s s')
    (hlooks : ρ.Unseen ((n.read? assignmentsOf).elim [] (assignLooks · s.vars))) :
    ρ.Accords ρ.Outcomes n.assignment n.assignment s s' := by
  refine .settings hs fun as has => ?_
  rw [has, Option.elim_some] at hlooks
  refine (assign_accords as [] [] hs .nil hlooks).next fun assigned assigned' t t' hassigned ht => ?_
  exact .pure ht (.done (.ofMembers (.cons _ (.obj hassigned) .nil)))

/-! ## timers and events -/

theorem timerWait_accords (hs : ρ.Sessions s s') (hc : ρ.Contexts c c') (mode : String) (time : Instant) :
    ρ.Accords ρ.Outcomes (timerWait c mode time) (timerWait c' mode time) s s' :=
  (Accords.freshId hs hc).next fun _ _ _ _ hid ht => .pure ht (.waiting .timer hid _ (Value.refl _))

theorem timer_accords (hs : ρ.Sessions s s') (hc : ρ.Contexts c c')
    (hlooks : ρ.Unseen ((n.read? TimerSettings.decode).elim [] fun t =>
      t.scheduledTime.elim [] (Template.shown s.vars))) : ρ.Accords ρ.Outcomes (n.timer c) (n.timer c') s s' := by
  refine .settings hs fun t ht => ?_
  rw [ht, Option.elim_some] at hlooks
  split
  · refine (Accords.deadline hs hc _).next fun time time' u u' htime hu => ?_
    rw [← htime]
    exact timerWait_accords hu hc _ time
  · refine .demand hs fun raw hraw => .vars ?_
    rw [hraw, Option.elim_some] at hlooks
    rw [hs.vars.fill hlooks]
    exact .demand hs fun time _ => timerWait_accords hs hc _ time
  · refine (Accords.deadline hs hc _).next fun time time' u u' htime hu => ?_
    rw [← htime]
    exact .pure hu (.refl rfl)
  · exact .misconfigured hs _

theorem emitEvent_accords (hs : ρ.Sessions s s') (hc : ρ.Contexts c c') (name : String) (payload : Json) :
    ρ.Accords ρ.Outcomes (emitEvent c n name payload) (emitEvent c' n name payload) s s' := by
  refine (Accords.freshId hs hc).next fun id id' t t' hid ht => .vars ?_
  refine (Accords.now ht hc).next fun time time' u u' _ hu => ?_
  refine Accords.next (Accords.changeStore hu { hu.world.store with } rfl) fun _ _ v v' _ hv => ?_
  refine (Accords.info hv _ _).next fun _ _ x x' _ hx => ?_
  exact .pure hx (.done (.ofMembers (.cons _ (.ofId hid) (Binds.refl _))))

/-- an event is awaited under a name that is no generated id -/
theorem awaitEvent_accords (hs : ρ.Sessions s s') (hc : ρ.Contexts c c') {name : String} (hname : ρ.Foreign name)
    (timeout : Option Int) :
    ρ.Accords ρ.Outcomes (awaitEvent c n name timeout) (awaitEvent c' n name timeout) s s' := by
  unfold awaitEvent
  rw [hc.env.settings]
  refine (Accords.deadline hs hc _).next fun time time' t t' htime ht => ?_
  rw [← htime]
  exact .pure ht (.waiting .event (.foreign hname) _ (Value.refl _))

theorem event_accords (hs : ρ.Sessions s s') (hc : ρ.Contexts c c')
    (hlooks : ρ.Unseen ((n.read? EventSettings.decode).elim [] (·.looks s.vars))) :
    ρ.Accords ρ.Outcomes (n.event c) (n.event c') s s' := by
  refine .settings hs fun t ht => .demand hs fun name hname => .vars ?_
  rw [ht, Option.elim_some, EventSettings.looks, hname, Option.elim_some] at hlooks
  have hforeign : ρ.Foreign (Template.fill s.vars name) :=
    hlooks.right _ (List.mem_singleton.mpr rfl) _ List.mem_cons_self
  rw [hs.vars.fill hlooks.left]
  dsimp only
  split
  · exact emitEvent_accords hs hc _ _
  · exact emitEvent_accords hs hc _ _
  · exact awaitEvent_accords hs hc hforeign _
  · exact awaitEvent_accords hs hc hforeign _
  · exact .misconfigured hs _

/-! ## work for people -/

theorem assignTask_accords (hs : ρ.Sessions s s') (t : TaskSettings) :
    ρ.Accords Eq (assignTask t) (assignTask t) s s' := by
  refine (Accords.fromStore (P := Eq) hs (hs.world.store.chosenAssignee t).symm).next fun a a' u u' ha hu => ?_
  refine (Accords.fromStore (P := Eq) hu (hu.world.store.countsAsWork t).symm).next fun b b' v v' hb hv => ?_
  subst ha hb
  cases a with
  | none => exact .pure hv rfl
  | some user =>
    cases b with
    | false => exact .pure hv rfl
    | true =>
      refine Accords.next (Accords.changeStore hv (hv.world.store.addWorkload user) rfl) fun _ _ x x' _ hx => ?_
      exact .pure hx rfl

theorem task_accords (hs : ρ.Sessions s s') (hc : ρ.Contexts c c') :
    ρ.Accords ρ.Outcomes (n.task c) (n.task c') s s' := by
  refine .settings hs fun t _ => ?_
  extract_lets leave leave'
  have hleave : ∀ dueDate {u u'}, ρ.Sessions u u' → ρ.Accords ρ.Outcomes (leave dueDate) (leave' dueDate) u u' := by
    intro dueDate u u' hu
    refine (assignTask_accords hu t).next fun a a' v v' ha hv => ?_
    subst ha
    refine (Accords.freshId hv hc).next fun id id' x x' hid hx => ?_
    refine (Accords.now hx hc).next fun time time' y y' _ hy => .vars ?_
    refine Accords.next (Accords.changeStore hy hy.world.store.insertTask rfl) fun _ _ z z' _ hz => ?_
    refine (Accords.info hz _ _).next fun _ _ x x' _ hx => ?_
    exact .pure hx (.waiting .task hid _ (.ofMembers (.cons _ (.ofId hid) (Binds.refl _))))
  split
  · refine (Accords.deadline hs hc _).next fun time time' u u' htime hu => ?_
    rw [← htime]
    exact hleave (some time) hu
  · exact hleave none hs

theorem approval_accords (hs : ρ.Sessions s s') (hc : ρ.Contexts c c') :
    ρ.Accords ρ.Outcomes (n.approval c) (n.approval c') s s' := by
  refine .settings hs fun t _ => (Accords.freshId hs hc).next fun id id' u u' hid hu => ?_
  refine (Accords.now hu hc).next fun time time' v v' _ hv => .vars ?_
  refine Accords.next (Accords.changeStore hv { hv.world.store with } rfl) fun _ _ x x' _ hx => ?_
  exact .pure hx (.waiting .approval hid _ (.ofMembers (.cons _ (.ofId hid) (Binds.refl _))))

theorem form_accords (hs : ρ.Sessions s s')
    (hlooks : ρ.Unseen ((n.read? formOf).elim [] fun id => id.elim [] ([.str ·]))) :
    ρ.Accords ρ.Outcomes n.form n.form s s' := by
  refine .settings hs fun t ht => .demand hs fun id hid => ?_
  obtain ⟨rfl, -⟩ := Option.filter_eq_some_iff.mp hid
  rw [ht] at hlooks
  have hforeign : ρ.Foreign id := hlooks _ (List.mem_singleton.mpr rfl) _ List.mem_cons_self
  exact .pure hs (.waiting .form (.foreign hforeign) _ (Value.refl _))

theorem screen_accords (hs : ρ.Sessions s s')
    (hlooks : ρ.Unseen ((n.read? screenOf).elim [] fun id => [.str (id.getD n.id)])) :
    ρ.Accords ρ.Outcomes n.screen n.screen s s' := by
  refine .settings hs fun t ht => ?_
  rw [ht] at hlooks
  have hforeign : ρ.Foreign (t.getD n.id) := hlooks _ (List.mem_singleton.mpr rfl) _ List.mem_cons_self
  exact .pure hs (.waiting .screen (.foreign hforeign) _ (Value.refl _))

/-! ## loops -/

theorem enterLoop_accords (hs : ρ.Sessions s s') : ρ.Accords Eq (enterLoop n) (enterLoop n) s s' := by
  show Beside Eq ρ.Sessions Eq (runFrom (get >>= _) s) (runFrom (get >>= _) s')
  rw [runFrom_bind_ok (runFrom_get s), runFrom_bind_ok (runFrom_get s'), hs.loops]
  cases s.loops.enter? n.id n.kind with
  | ok opened => exact ⟨.ok rfl, { hs with loops := rfl }⟩
  | error e => exact .throw hs rfl

theorem openLoop_accords {more more' : List (String × Json)} (hs : ρ.Sessions s s') (h : ρ.Binds more more') :
    ρ.Accords ρ.Outcomes (do return loopOutcome n (← enterLoop n) more) (do return loopOutcome n (← enterLoop n) more')
      s s' := by
  refine (enterLoop_accords hs).next fun frame frame' t t' hframe ht => ?_
  subst hframe
  exact .pure ht (.done (.ofMembers (List.rel_append (Binds.refl _) h)))

/-- an input that is no list fails with its text -/
theorem input_cases {v : Json} (hs : ρ.Sessions s s') (hlooks : ρ.Unseen (inputLooks s.vars v)) :
    (∃ items items', resolve s.vars v = .arr items ∧ resolve s'.vars v = .arr items' ∧
      List.Forall₂ ρ.Value items items' ∧ inputItems s.vars v = items) ∨
    (inputItems s.vars v = [] ∧ resolve s'.vars v = resolve s.vars v ∧ ∀ items, resolve s.vars v ≠ .arr items) := by
  have hvalue := hs.vars.resolve v hlooks.left
  have hother := hlooks.right
  unfold inputItems
  generalize resolve s.vars v = x at hvalue hother ⊢
  generalize resolve s'.vars v = y at hvalue ⊢
  cases x with
  | arr items =>
    obtain ⟨items', rfl, hitems⟩ := hvalue.arr_inv
    exact .inl ⟨items, items', rfl, rfl, hitems, rfl⟩
  | null | bool _ | int _ | double _ => exact .inr ⟨rfl, hvalue.eq_of_free fun _ h => (nomatch h), nofun⟩
  | str _ | obj _ => exact .inr ⟨rfl, hvalue.eq_of_free (hother _ (List.mem_singleton.mpr rfl)), nofun⟩

theorem loopForEach_accords (hs : ρ.Sessions s s')
    (hlooks : ρ.Unseen ((n.read? ForEachSettings.decode).elim [] fun t => inputLooks s.vars t.collection)) :
    ρ.Accords ρ.Outcomes n.loopForEach n.loopForEach s s' := by
  refine .settings hs fun t ht => .vars ?_
  rw [ht, Option.elim_some] at hlooks
  rcases input_cases hs hlooks with ⟨items, items', hitems, hitems', hrel, -⟩ | ⟨-, hsame, hnone⟩
  · rw [hitems, hitems']
    refine Accords.next (.pure hs hrel) fun is is' u u' his hu => ?_
    have hempty : is'.isEmpty = is.isEmpty := by
      cases his with
      | nil => rfl
      | cons => rfl
    refine openLoop_accords hu ?_
    rw [his.length_eq, hempty]
    exact List.rel_append (Binds.refl [_, _, _, _, _]) (Binds.cons _ (.arr his) .nil)
  · rw [hsame]
    split
    · next items hitems => exact absurd hitems (hnone items)
    · exact Accords.next (.pure hs (P := Eq) rfl) fun is is' u u' his hu => his ▸ openLoop_accords hu (Binds.refl _)
    · exact .throw hs rfl

theorem holds_eq {text : String} (hs : ρ.Sessions s s') (hlooks : ρ.Unseen (textLooks s.vars text)) :
    holds s'.vars text = holds s.vars text := by
  unfold holds
  rw [hs.vars.condition? hlooks]

theorem loopWhile_accords (hs : ρ.Sessions s s')
    (hlooks : ρ.Unseen ((n.read? ConditionSettings.decode).elim [] fun t => t.condition.elim [] (textLooks s.vars))) :
    ρ.Accords ρ.Outcomes n.loopWhile n.loopWhile s s' := by
  refine .settings hs fun t ht => .demand hs fun condition hcondition => .vars ?_
  rw [ht, Option.elim_some, hcondition] at hlooks
  rw [holds_eq hs hlooks]
  exact openLoop_accords hs (Binds.refl _)

theorem loopDoWhile_accords (hs : ρ.Sessions s s')
    (hlooks : ρ.Unseen ((n.read? ConditionSettings.decode).elim [] fun t => t.condition.elim [] (textLooks s.vars))) :
    ρ.Accords ρ.Outcomes n.loopDoWhile n.loopDoWhile s s' := by
  refine .settings hs fun t ht => .vars ?_
  rw [ht, Option.elim_some] at hlooks
  have hsame : (t.condition.getD "" ≠ "" && holds s'.vars (t.condition.getD "")) =
      (t.condition.getD "" ≠ "" && holds s.vars (t.condition.getD "")) := by
    cases hcondition : t.condition with
    | none => simp only [Option.getD_none, ne_eq, not_true_eq_false, decide_false, Bool.false_and]
    | some condition =>
      rw [hcondition] at hlooks
      rw [Option.getD_some, holds_eq hs hlooks]
  dsimp only
  rw [hsame]
  exact openLoop_accords hs (Binds.refl _)

theorem countOf_accords (hs : ρ.Sessions s s') (v : Json) : ρ.Accords Eq (countOf n v) (countOf n v) s s' := by
  unfold countOf
  split
  · exact .pure hs rfl
  · unfold demand
    split
    · exact .pure hs rfl
    · exact .misconfigured hs _
  · unfold demand
    split
    · exact .pure hs rfl
    · exact .misconfigured hs _

theorem loopRepeat_accords (hs : ρ.Sessions s s')
    (hlooks : ρ.Unseen ((n.read? repeatCountOf).elim [] fun v => resolveLooks s.vars v ++ [resolve s.vars v])) :
    ρ.Accords ρ.Outcomes n.loopRepeat n.loopRepeat s s' := by
  refine .settings hs fun v hv => .vars ?_
  rw [hv, Option.elim_some] at hlooks
  have hsame := (hs.vars.resolve v hlooks.left).eq_of_free (hlooks.right _ (List.mem_singleton.mpr rfl))
  rw [hsame]
  refine (countOf_accords hs _).next fun count count' t t' hcount ht => ?_
  subst hcount
  exact openLoop_accords ht (Binds.refl _)

theorem loopControl_accords (hs : ρ.Sessions s s')
    (hlooks : ρ.Unseen ((n.read? guardOf).elim [] fun guard => guard.elim [] (textLooks s.vars))) :
    ρ.Accords ρ.Outcomes n.loopControl n.loopControl s s' := by
  refine .settings hs fun guard hguard => .vars ?_
  rw [hguard, Option.elim_some] at hlooks
  have hsame : (guard.getD "" = "" || holds s'.vars (guard.getD "")) =
      (guard.getD "" = "" || holds s.vars (guard.getD "")) := by
    cases guard with
    | none => simp only [Option.getD_none, decide_true, Bool.true_or]
    | some condition => rw [Option.getD_some, holds_eq hs hlooks]
  dsimp only
  rw [hsame]
  split
  · split
    · have hexit : ρ.Accords Eq exitLoop exitLoop s s' := by
        refine ⟨.ok ?_, { hs with loops := ?_ }⟩
        · show s.loops.current?.map (·.loopId) = s'.loops.current?.map (·.loopId)
          rw [hs.loops]
        · show s'.loops.exit = s.loops.exit
          rw [hs.loops]
      refine hexit.next fun exited exited' t t' hexited ht => ?_
      subst hexited
      exact .pure ht (.refl rfl)
    · have htick : ρ.Accords Eq tickLoop tickLoop s s' := by
        refine ⟨.ok rfl, { hs with loops := ?_ }⟩
        show s'.loops.tick = s.loops.tick
        rw [hs.loops]
      exact htick.next fun _ _ t t' _ ht => .pure ht (.refl rfl)
  · exact .pure hs (.refl rfl)

/-! ## actions -/

theorem fillAuth_eq {auth : HttpAuth} (hs : ρ.Sessions s s') (hlooks : ρ.Unseen (authLooks s.vars auth)) :
    fillAuth s'.vars auth = fillAuth s.vars auth := by
  cases auth with
  | bearer token => exact congrArg HttpAuth.bearer (hs.vars.fill hlooks)
  | basic username password =>
    exact congrArg₂ HttpAuth.basic (hs.vars.fill hlooks.left) (hs.vars.fill hlooks.right)

theorem headers_eq {headers : Vars} (hs : ρ.Sessions s s')
    (hlooks : ρ.Unseen (headers.flatMap fun h => Template.shown s.vars h.2.text)) :
    Dict.mapValues (fun v => Template.fill s'.vars v.text) headers =
      Dict.mapValues (fun v => Template.fill s.vars v.text) headers :=
  List.map_congr_left fun h hh => congrArg (h.1, ·) (hs.vars.fill (hlooks.one hh))

/-- Requests that differ in generated ids of their bodies are answered alike. -/
theorem call_accords {t : ActionSettings} {body body' : Option Json} (hs : ρ.Sessions s s') (hc : ρ.Contexts c c')
    (hlooks : ρ.Unseen (t.looks s.vars)) (method : String) (hbody : Option.Rel ρ.Value body body') :
    ρ.Accords ρ.Outcomes (call c n t method body) (call c' n t method body') s s' := by
  refine .demand hs fun url hurl => .vars ?_
  unfold ActionSettings.looks at hlooks
  have hurlLooks := hlooks.left.left.left.left.left
  rw [hurl, Option.elim_some] at hurlLooks
  have hauth : t.auth.map (fillAuth s'.vars) = t.auth.map (fillAuth s.vars) := by
    have hauthLooks := hlooks.left.right
    cases ha : t.auth with
    | none => rfl
    | some auth =>
      rw [ha] at hauthLooks
      exact congrArg some (fillAuth_eq hs hauthLooks)
  rw [hs.vars.fill hurlLooks, headers_eq hs hlooks.left.left.left.left.right, hauth, hc.env.settings]
  refine (Accords.info hs _ _).next fun _ _ u u' _ hu => ?_
  refine Accords.next (Accords.onWorld (P := Eq) hu ?_ (hu.world.send _ _)) fun r r' v v' hr hv => ?_
  · show c.env.reply u.world.sent.size _ = c'.env.reply u'.world.sent.size _
    rw [hu.world.sent]
    exact (hc.env.reply _ ⟨_, _, _, body, _, _⟩ body' hbody).symm
  · subst hr
    cases r with
    | ok reply =>
      refine .pure hv (.refl ?_)
      unfold replyOutcome
      dsimp only
      split
      · rfl
      · rfl
    | error e => exact .throw hv rfl

theorem action_accords (hs : ρ.Sessions s s') (hc : ρ.Contexts c c')
    (hlooks : ρ.Unseen ((n.read? ActionSettings.decode).elim [] (·.looks s.vars))) :
    ρ.Accords ρ.Outcomes (n.action c) (n.action c') s s' := by
  refine .settings hs fun t ht => .vars ?_
  rw [ht, Option.elim_some] at hlooks
  have hparts := hlooks
  unfold ActionSettings.looks at hparts
  split
  · refine call_accords hs hc hlooks _ ?_
    have hbody := hparts.left.left.left.right
    cases hb : t.body with
    | none => exact .none
    | some body =>
      rw [hb] at hbody
      rw [Option.map_some, Option.map_some, hs.vars.fillDeep hbody]
      exact .some (Value.refl _)
  · refine call_accords hs hc hlooks _ (.some ?_)
    have hpayload := hparts.left.left.right
    cases hp : t.payload with
    | none => exact .obj hs.vars
    | some payload =>
      rw [hp] at hpayload
      show ρ.Value (fillDeep s.vars payload) (fillDeep s'.vars payload)
      rw [hs.vars.fillDeep hpayload]
      exact Value.refl _
  · refine .demand hs fun script hscript => ?_
    have hscriptLooks := hparts.right
    rw [hscript, Option.elim_some] at hscriptLooks
    rw [hs.vars.evaluate hscriptLooks]
    exact .pure hs (.refl rfl)
  · exact .misconfigured hs _

/-! ## records -/

theorem recordSettings_accords {α α' : Type} {Q : α → α' → Prop} {f : RecordSettings × String → NodeRun α}
    {f' : RecordSettings × String → NodeRun α'} (hs : ρ.Sessions s s')
    (h : ∀ t collection, n.read? RecordSettings.decode = some t →
      ρ.Accords Q (f (t, collection)) (f' (t, collection)) s s') :
    ρ.Accords Q (n.recordSettings >>= f) (n.recordSettings >>= f') s s' := by
  unfold recordSettings
  simp only [bind_assoc, pure_bind]
  exact .settings hs fun t ht => .demand hs fun collection _ => h t collection ht

/-- criteria hold no generated id once they are evaluated -/
theorem criteria_free {criteria : Vars} (hlooks : ρ.Unseen (criteriaLooks criteria s.vars)) :
    ∀ c ∈ evaluateMembers s.vars criteria, ρ.Free c.2 :=
  fun c hc => hlooks.right c.2 (List.mem_map.mpr ⟨c, hc, rfl⟩)

theorem lookupRecord_accords (hs : ρ.Sessions s s')
    (hlooks : ρ.Unseen ((n.read? RecordSettings.decode).elim [] fun t => criteriaLooks t.criteria s.vars)) :
    ρ.Accords ρ.Outcomes n.lookupRecord n.lookupRecord s s' := by
  refine recordSettings_accords hs fun t collection ht => .vars ?_
  rw [ht, Option.elim_some] at hlooks
  rw [hs.vars.evaluateMembers hlooks.left]
  have hfound := hs.world.store.find collection (criteria_free hlooks)
  refine Accords.next (Accords.onStore hs hfound (Store.core_find _ _ _)) fun rs rs' u u' hrs hu => ?_
  refine (Accords.setVar? hu _ (.arr hrs)).next fun _ _ v v' _ hv => ?_
  have hhead : ρ.Value (rs.head?.getD .null) (rs'.head?.getD .null) := by
    cases hrs with
    | nil => exact Value.refl _
    | cons hr => exact hr
  rw [hrs.length_eq]
  exact .pure hv (.done (.ofMembers (.cons _ (Value.refl _) (.cons _ hhead (.cons _ (.arr hrs) .nil)))))

theorem createRecord_accords (hs : ρ.Sessions s s') (hc : ρ.Contexts c c')
    (hlooks : ρ.Unseen ((n.read? RecordSettings.decode).elim [] fun t => fieldLooks t.fields s.vars)) :
    ρ.Accords ρ.Outcomes (n.createRecord c) (n.createRecord c') s s' := by
  refine recordSettings_accords hs fun t collection ht => .vars ?_
  rw [ht, Option.elim_some] at hlooks
  rw [hs.vars.evaluateMembers hlooks]
  refine (Accords.freshId hs hc).next fun id id' u u' hid hu => ?_
  have hinserted := hu.world.store.insert collection (evaluateMembers s.vars t.fields) hid
  refine Accords.next (Accords.onStore hu hinserted (Store.core_insert _ _ _ _)) fun r r' v v' hr hv => ?_
  refine (Accords.info hv _ _).next fun _ _ x x' _ hx => (Accords.setVar? hx _ hr).next fun _ _ y y' _ hy => ?_
  exact .pure hy (.done (.ofMembers (.cons _ hr (Binds.refl _))))

theorem updateRecord_accords (hs : ρ.Sessions s s')
    (hlooks : ρ.Unseen ((n.read? RecordSettings.decode).elim [] fun t =>
      criteriaLooks t.criteria s.vars ++ fieldLooks t.fields s.vars)) :
    ρ.Accords ρ.Outcomes n.updateRecord n.updateRecord s s' := by
  refine recordSettings_accords hs fun t collection ht => .vars ?_
  rw [ht, Option.elim_some] at hlooks
  rw [hs.vars.evaluateMembers hlooks.left.left, hs.vars.evaluateMembers hlooks.right]
  have hupdated := hs.world.store.update collection (evaluateMembers s.vars t.fields) (criteria_free hlooks.left)
  refine Accords.next (Accords.onStore hs hupdated (Store.core_update _ _ _ _)) fun k k' u u' hk hu => ?_
  subst hk
  exact .pure hu (.refl rfl)

theorem deleteRecord_accords (hs : ρ.Sessions s s')
    (hlooks : ρ.Unseen ((n.read? RecordSettings.decode).elim [] fun t => criteriaLooks t.criteria s.vars)) :
    ρ.Accords ρ.Outcomes n.deleteRecord n.deleteRecord s s' := by
  refine recordSettings_accords hs fun t collection ht => .vars ?_
  rw [ht, Option.elim_some] at hlooks
  rw [hs.vars.evaluateMembers hlooks.left]
  dsimp only
  split
  · exact .misconfigured hs _
  · have hdeleted := hs.world.store.delete collection (criteria_free hlooks)
    refine Accords.next (Accords.onStore hs hdeleted (Store.core_delete _ _ _)) fun k k' u u' hk hu => ?_
    subst hk
    exact .pure hu (.refl rfl)

/-! ## data -/

/-- the items of an input that is a list, and the end of the run for any other -/
theorem itemsOf_accords {α α' : Type} {Q : α → α' → Prop} {v : Json} {f : List Json → NodeRun α}
    {f' : List Json → NodeRun α'} (hs : ρ.Sessions s s') (hlooks : ρ.Unseen (inputLooks s.vars v))
    (h : ∀ items items', inputItems s.vars v = items → List.Forall₂ ρ.Value items items' →
      ρ.Accords Q (f items) (f' items') s s') :
    ρ.Accords Q (itemsOf n (resolve s.vars v) >>= f) (itemsOf n (resolve s'.vars v) >>= f') s s' := by
  rcases input_cases hs hlooks with ⟨items, items', hitems, hitems', hrel, hinput⟩ | ⟨hinput, hsame, hnone⟩
  · rw [hitems, hitems']
    exact h items items' hinput hrel
  · rw [hsame]
    unfold itemsOf
    split
    · next items hitems => exact absurd hitems (hnone items)
    · exact h [] [] hinput .nil
    · exact .throw hs rfl

/-- an item over the variables -/
theorem Binds.itemScope {vs vs' : Vars} {item item' : Json} (h : ρ.Binds vs vs') (hitem : ρ.Value item item') :
    ρ.Binds (itemScope vs item) (itemScope vs' item') := by
  refine Dict.Related.insert (h.overlay ?_) "item" hitem
  rcases hitem.inv with rfl | ⟨k, rfl, rfl⟩ | ⟨items, items', rfl, rfl, -⟩ | ⟨members, members', rfl, rfl, hmembers⟩
  · exact Binds.refl _
  · exact .nil
  · exact .nil
  · exact hmembers

/-! ### transformation -/

/-- functions in turn have a value, or the node fails -/
theorem applyAll_cases (n : Node) (fs : List String) (v : Json) :
    (∃ w, fs.foldlM (fun v f => (Json.apply f v).toOption) v = some w ∧
      ∀ s, runFrom (applyAll n fs v) s = (.ok w, s)) ∨
    fs.foldlM (fun v f => (Json.apply f v).toOption) v = none ∧
      ∃ e, ∀ s, runFrom (applyAll n fs v) s = (.error e, s) := by
  induction fs generalizing v with
  | nil => exact .inl ⟨v, rfl, fun _ => rfl⟩
  | cons f fs ih =>
    rw [List.foldlM_cons, applyAll]
    cases Json.apply f v with
    | ok w => exact ih w
    | error reason => exact .inr ⟨rfl, _, fun _ => rfl⟩

/-- what is no object is no place for a path -/
theorem mappedValue_of_isRecord {scope : Vars} {item : Json} {path : String} (h : Store.isRecord item = false) :
    mappedValue scope item (.str path) = evaluate scope path := by
  unfold mappedValue
  split
  · cases h
  · next heq _ =>
    cases heq
    rfl
  · next hstr _ => exact absurd rfl (hstr path)

theorem sourceLooks_of_isRecord {scope : Vars} {item : Json} {path : String} (h : Store.isRecord item = false) :
    sourceLooks scope item (.str path) = textLooks scope path := by
  unfold sourceLooks
  split
  · cases h
  · next heq _ =>
    cases heq
    rfl
  · next hstr _ => exact absurd rfl (hstr path)

theorem mappedValue_value {vs vs' : Vars} {item item' source : Json} (h : ρ.Binds vs vs') (hitem : ρ.Value item item')
    (hlooks : ρ.Unseen (sourceLooks vs item source)) :
    ρ.Value (mappedValue vs item source) (mappedValue vs' item' source) := by
  cases source with
  | str path =>
    have hevaluated : ρ.Unseen (textLooks vs path) → ρ.Value (evaluate vs path) (evaluate vs' path) := fun hlooks => by
      rw [h.evaluate hlooks]
      generalize evaluate vs path = v
      exact Value.refl v
    cases hrecord : Store.isRecord item with
    | false =>
      have hrecord' : Store.isRecord item' = false := (Stores.isRecord hitem).trans hrecord
      rw [sourceLooks_of_isRecord hrecord] at hlooks
      rw [mappedValue_of_isRecord hrecord, mappedValue_of_isRecord hrecord']
      exact hevaluated hlooks
    | true =>
      cases item with
      | obj members =>
        obtain ⟨members', rfl, -⟩ := hitem.obj_inv
        unfold sourceLooks at hlooks
        unfold mappedValue
        simp only at hlooks ⊢
        rcases rel_cases (h.lookup? ("item." ++ path)) with ⟨hv, hv'⟩ | ⟨v, v', hv, hv', hvalue⟩
        · rw [hv] at hlooks
          simp only [hv, hv']
          exact hevaluated hlooks
        · simp only [hv, hv']
          exact hvalue
      | _ => cases hrecord
  | _ => exact Value.refl _

theorem mapped_value {vs vs' : Vars} {mapping : Vars} {v v' : Json} (h : ρ.Binds vs vs') (hv : ρ.Value v v')
    (hlooks : ρ.Unseen (mapping.flatMap fun m => sourceLooks (itemScope vs v) v m.2)) :
    ρ.Value (mapped vs mapping v) (mapped vs' mapping v') := by
  unfold mapped
  split
  · exact hv
  · exact .obj (Dict.Related.mapValues fun m hm => mappedValue_value (h.itemScope hv) hv (hlooks.one hm))

theorem transform_accords (hs : ρ.Sessions s s')
    (hlooks : ρ.Unseen ((n.read? TransformSettings.decode).elim [] (·.looks s.vars))) :
    ρ.Accords ρ.Outcomes n.transform n.transform s s' := by
  refine .settings hs fun t ht => .vars ?_
  rw [ht, Option.elim_some] at hlooks
  unfold TransformSettings.looks at hlooks
  have hinput := hs.vars.resolve t.input hlooks.left
  have hrest := hlooks.right
  have hend : ∀ v v', ρ.Value v v' → ρ.Unseen (t.mapping.flatMap fun m => sourceLooks (itemScope s.vars v) v m.2) →
      ρ.Accords ρ.Outcomes
        (do
          setVar? t.outputVariable (mapped s.vars t.mapping v)
          return .done (.ofMembers [("result", mapped s.vars t.mapping v)]))
        (do
          setVar? t.outputVariable (mapped s'.vars t.mapping v')
          return .done (.ofMembers [("result", mapped s'.vars t.mapping v')])) s s' := by
    intro v v' hv hmapping
    have hresult := mapped_value hs.vars hv hmapping
    refine (Accords.setVar? hs _ hresult).next fun _ _ u u' _ hu => ?_
    exact .pure hu (.done (.ofMembers (.cons _ hresult .nil)))
  split at hrest
  · next hempty =>
    rw [List.isEmpty_iff.mp hempty]
    exact hend _ _ hinput hrest
  · have hsame := hinput.eq_of_free (hrest.left _ (List.mem_singleton.mpr rfl))
    have hmapping := hrest.right
    rw [hsame]
    rcases applyAll_cases n t.functions (resolve s.vars t.input) with ⟨w, hw, hrun⟩ | ⟨-, e, hrun⟩
    · rw [hw] at hmapping
      show Beside Eq ρ.Sessions ρ.Outcomes (runFrom (applyAll n t.functions _ >>= _) s)
        (runFrom (applyAll n t.functions _ >>= _) s')
      rw [runFrom_bind_ok (hrun s), runFrom_bind_ok (hrun s')]
      exact hend w w (Value.refl w) hmapping
    · show Beside Eq ρ.Sessions ρ.Outcomes (runFrom (applyAll n t.functions _ >>= _) s)
        (runFrom (applyAll n t.functions _ >>= _) s')
      rw [runFrom_bind_error (hrun s), runFrom_bind_error (hrun s')]
      exact ⟨.error rfl, hs⟩

/-! ### lists -/

theorem filter_accords (hs : ρ.Sessions s s')
    (hlooks : ρ.Unseen ((n.read? FilterSettings.decode).elim [] (·.looks s.vars))) :
    ρ.Accords ρ.Outcomes n.filter n.filter s s' := by
  refine .settings hs fun t ht => .demand hs fun condition hcondition => .vars ?_
  rw [ht, Option.elim_some, FilterSettings.looks, hcondition, Option.elim_some] at hlooks
  refine itemsOf_accords hs hlooks.left fun items items' hitems hrel => ?_
  have hconditions := hlooks.right
  rw [hitems] at hconditions
  have hkept : List.Forall₂ ρ.Value
      (items.filter fun item => condition? (itemScope s.vars item) condition = some true)
      (items'.filter fun item => condition? (itemScope s'.vars item) condition = some true) := by
    clear hitems hlooks
    induction hrel with
    | nil => exact .nil
    | @cons item item' items items' hitem _ ih =>
      have hsame := (hs.vars.itemScope hitem).condition? (hconditions.one List.mem_cons_self)
      have hrest := ih fun v hv => hconditions v (List.mem_append_right _ hv)
      rw [List.filter_cons, List.filter_cons, hsame]
      split
      · exact .cons hitem hrest
      · exact hrest
  refine (Accords.setVar? hs _ (.arr hkept)).next fun _ _ u u' _ hu => ?_
  rw [hkept.length_eq]
  exact .pure hu (.done (.ofMembers (.cons _ (Value.refl _) (.cons _ (.arr hkept) .nil))))

theorem keyOf_rel {item item' : Json} (path : Option String) (h : ρ.Value item item') :
    Option.Rel ρ.Value (keyOf path item) (keyOf path item') := by
  cases path with
  | none => exact .some h
  | some p => exact h.at? p

theorem insertFromEnd_rel {R : Json → Json → Prop} {isBefore : Json → Json → Bool}
    (hbefore : ∀ {a a' b b'}, R a a' → R b b' → isBefore a' b' = isBefore a b) {a a' : Json} {items items' : List Json}
    (ha : R a a') (h : List.Forall₂ R items items') :
    List.Forall₂ R (Json.insertFromEnd isBefore a items) (Json.insertFromEnd isBefore a' items') := by
  induction h with
  | nil => exact .cons ha .nil
  | @cons b b' items items' hb hrest ih =>
    rw [Json.insertFromEnd, Json.insertFromEnd, hbefore ha hb]
    split
    · exact .cons hb ih
    · exact .cons ha (.cons hb hrest)

/-- items whose keys hold no generated id are sorted alike -/
theorem sortBy_rel {path : Option String} {items items' : List Json} (descending : Bool)
    (h : List.Forall₂ ρ.Value items items') (hkeys : ρ.Unseen (items.filterMap (keyOf path))) :
    List.Forall₂ ρ.Value (Json.sortBy (keyOf path) descending items) (Json.sortBy (keyOf path) descending items') := by
  have hfree : ∀ a ∈ items, ∀ k, keyOf path a = some k → ρ.Free k :=
    fun a ha k hk => hkeys k (List.mem_filterMap.mpr ⟨a, ha, hk⟩)
  have hsame : List.Forall₂ (fun a a' => ρ.Value a a' ∧ keyOf path a' = keyOf path a) items items' :=
    ((List.forall₂_and_left _ _).mpr ⟨hfree, h⟩).imp fun a a' ha => ⟨ha.2, eq_of_rel (keyOf_rel path ha.2) ha.1⟩
  have hsorted : List.Forall₂ (fun a a' => ρ.Value a a' ∧ keyOf path a' = keyOf path a)
      (Json.sortBy (keyOf path) descending items) (Json.sortBy (keyOf path) descending items') := by
    refine List.rel_reverse (List.rel_foldl (fun sorted sorted' hsorted a a' ha => ?_) .nil hsame)
    refine insertFromEnd_rel (fun hb hb' => ?_) ha hsorted
    rw [hb.2, hb'.2]
  exact hsorted.imp fun _ _ ha => ha.1

theorem sort_accords (hs : ρ.Sessions s s')
    (hlooks : ρ.Unseen ((n.read? SortSettings.decode).elim [] (·.looks s.vars))) :
    ρ.Accords ρ.Outcomes n.sort n.sort s s' := by
  refine .settings hs fun t ht => .vars ?_
  rw [ht, Option.elim_some, SortSettings.looks] at hlooks
  refine itemsOf_accords hs hlooks.left fun items items' hitems hrel => .demand hs fun descending _ => ?_
  have hkeys := hlooks.right
  rw [hitems] at hkeys
  have hsorted := sortBy_rel descending hrel hkeys
  refine (Accords.setVar? hs _ (.arr hsorted)).next fun _ _ u u' _ hu => ?_
  exact .pure hu (.done (.ofMembers (.cons _ (.arr hsorted) .nil)))

/-- numbers are no generated ids -/
theorem numbersOf_eq {path : Option String} {items items' : List Json} (h : List.Forall₂ ρ.Value items items') :
    numbersOf path items' = numbersOf path items := by
  unfold numbersOf
  induction h with
  | nil => rfl
  | @cons item item' items items' hitem _ ih =>
    have hnumber : (keyOf path item').bind Json.double? = (keyOf path item).bind Json.double? := by
      rcases rel_cases (keyOf_rel path hitem) with ⟨hk, hk'⟩ | ⟨k, k', hk, hk', hkey⟩
      · rw [hk, hk']
      · rw [hk, hk']
        exact hkey.double?
    rw [List.filterMap_cons, List.filterMap_cons, hnumber, ih]

theorem aggregate_accords (hs : ρ.Sessions s s')
    (hlooks : ρ.Unseen ((n.read? AggregateSettings.decode).elim [] fun t => inputLooks s.vars t.input)) :
    ρ.Accords ρ.Outcomes n.aggregate n.aggregate s s' := by
  refine .settings hs fun t ht => .vars ?_
  rw [ht, Option.elim_some] at hlooks
  refine itemsOf_accords hs hlooks fun items items' _ hrel => .demand hs fun kind _ => ?_
  rw [numbersOf_eq hrel]
  refine (Accords.setVar? hs _ (Value.refl _)).next fun _ _ u u' _ hu => ?_
  exact .pure hu (.refl rfl)

theorem calculate_accords (hs : ρ.Sessions s s')
    (hlooks : ρ.Unseen ((n.read? CalculateSettings.decode).elim [] fun t => t.expression.elim [] (textLooks s.vars))) :
    ρ.Accords ρ.Outcomes n.calculate n.calculate s s' := by
  refine .settings hs fun t ht => .demand hs fun expression hexpression => .vars ?_
  rw [ht, Option.elim_some, hexpression, Option.elim_some] at hlooks
  rw [hs.vars.evaluate hlooks]
  refine (Accords.setVar hs _ (Value.refl _)).next fun _ _ u u' _ hu => ?_
  exact .pure hu (.refl rfl)

/-! ## all kinds -/

/-- A handler that looks at no generated id ends alike in both runs. -/
theorem handle_accords (hk : n.kind ≠ .subprocess) (hs : ρ.Sessions s s') (hc : ρ.Contexts c c')
    (hlooks : ρ.Unseen (n.looksAt s.vars)) : ρ.Accords ρ.Outcomes (n.handle c) (n.handle c') s s' := by
  unfold Node.looksAt at hlooks
  unfold handle
  cases h : n.kind with
  | subprocess => exact absurd h hk
  | start | finish | parallel | merge => exact .pure hs (.refl rfl)
  | task => exact task_accords hs hc
  | decision => exact decision_accords hs (by rwa [h] at hlooks)
  | switch => exact switch_accords hs (by rwa [h] at hlooks)
  | approval => exact approval_accords hs hc
  | form => exact form_accords hs (by rwa [h] at hlooks)
  | screen => exact screen_accords hs (by rwa [h] at hlooks)
  | action => exact action_accords hs hc (by rwa [h] at hlooks)
  | timer => exact timer_accords hs hc (by rwa [h] at hlooks)
  | event => exact event_accords hs hc (by rwa [h] at hlooks)
  | assignment => exact assignment_accords hs (by rwa [h] at hlooks)
  | loopForEach => exact loopForEach_accords hs (by rwa [h] at hlooks)
  | loopWhile => exact loopWhile_accords hs (by rwa [h] at hlooks)
  | loopDoWhile => exact loopDoWhile_accords hs (by rwa [h] at hlooks)
  | loopRepeat => exact loopRepeat_accords hs (by rwa [h] at hlooks)
  | loopBreak | loopContinue => exact loopControl_accords hs (by rwa [h] at hlooks)
  | lookupRecord => exact lookupRecord_accords hs (by rwa [h] at hlooks)
  | createRecord => exact createRecord_accords hs hc (by rwa [h] at hlooks)
  | updateRecord => exact updateRecord_accords hs (by rwa [h] at hlooks)
  | deleteRecord => exact deleteRecord_accords hs (by rwa [h] at hlooks)
  | transform => exact transform_accords hs (by rwa [h] at hlooks)
  | filter => exact filter_accords hs (by rwa [h] at hlooks)
  | sort => exact sort_accords hs (by rwa [h] at hlooks)
  | aggregate => exact aggregate_accords hs (by rwa [h] at hlooks)
  | calculate => exact calculate_accords hs (by rwa [h] at hlooks)
  | unknown name => exact .throw hs rfl

end Renaming
end Workflows
