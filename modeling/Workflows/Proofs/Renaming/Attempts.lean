import Workflows.Proofs.Engine.Accepted
import Workflows.Proofs.Renaming.Nodes

/-!
# Children and attempts under other names

A subprocess node asks for a child and waits for it under its id.  A node that is tried again begins with the variables
that it had at first.

* `Renaming.ChildAlike`   the child that a node asks for is started alike in both runs
* `Renaming.Ends`         an outcome and a session after a node, in the two runs

Main statements: a node ends alike in both runs, if its child does (`attempt_ends`, `runWithRetries_ends`).
-/

namespace Workflows

namespace Renaming
open Node NodeRun Engine
variable {ρ : Renaming} {s s' : Session} {c c' : NodeContext} {n : Node} {r r' : StartRequest} {w w' : World}

/-! ## the variables of a child -/

/-- members whose values are looked up in two ways -/
theorem Binds.filterMap {f g : String → Option Json} {mapping : Dict String}
    (h : ∀ m ∈ mapping, Option.Rel ρ.Value (f m.2) (g m.2)) :
    ρ.Binds (mapping.filterMap fun m => (f m.2).map (m.1, ·)) (mapping.filterMap fun m => (g m.2).map (m.1, ·)) := by
  induction mapping with
  | nil => exact .nil
  | cons m mapping ih =>
    have hrest := ih fun k hk => h k (List.mem_cons_of_mem m hk)
    rw [List.filterMap_cons, List.filterMap_cons]
    rcases rel_cases (h m List.mem_cons_self) with ⟨hf, hg⟩ | ⟨v, v', hf, hg, hv⟩
    · rw [hf, hg]
      exact hrest
    · rw [hf, hg]
      exact Binds.cons m.1 hv hrest

theorem Binds.sourceValue? {vs vs' : Vars} {source : String} (h : ρ.Binds vs vs')
    (hlooks : ρ.Unseen (if Text.occursIn "$\x7b" source then textLooks vs source else [])) :
    Option.Rel ρ.Value (sourceValue? vs source) (sourceValue? vs' source) := by
  unfold Workflows.sourceValue?
  split
  · next htemplate =>
    rw [if_pos htemplate] at hlooks
    rw [h.evaluate hlooks]
    exact Value.rel_refl _
  · exact h.lookup? source

theorem Binds.childVariables {vs vs' : Vars} {mapping : Dict String} (h : ρ.Binds vs vs') (isolated : Bool)
    (hlooks : ρ.Unseen (inputMappingLooks mapping vs)) :
    ρ.Binds (childVariables vs mapping isolated) (childVariables vs' mapping isolated) := by
  have hinputs : ρ.Binds (mappedInputs vs mapping) (mappedInputs vs' mapping) :=
    Binds.filterMap fun m hm => h.sourceValue? (hlooks.one hm)
  refine Dict.Related.overlay ?_ hinputs
  split
  · exact .nil
  · exact h

/-! ## asking for a child -/

theorem childLevel_accords (hs : ρ.Sessions s s') (max level : Nat) :
    ρ.Accords Eq (liftM (childLevel max level) : NodeRun Nat) (liftM (childLevel max level) : NodeRun Nat) s s' := by
  unfold childLevel
  split
  · exact .pure hs rfl
  · exact .throw hs rfl

theorem warnAll_accords (hs : ρ.Sessions s s') (ws : List String) :
    ρ.Accords (fun _ _ => True) (warnAll c n ws) (warnAll c' n ws) s s' := by
  induction ws generalizing s s' with
  | nil => exact .pure hs trivial
  | cons w ws ih => exact (Accords.warn hs _ _).next fun _ _ t t' _ ht => ih ht

theorem vars_childLevel (max level : Nat) :
    (runFrom (liftM (childLevel max level) : NodeRun Nat) s).2.vars = s.vars := by
  unfold childLevel
  split
  · rfl
  · rfl

theorem vars_warnAll (ws : List String) : (runFrom (warnAll c n ws) s).2.vars = s.vars := by
  induction ws generalizing s with
  | nil => rfl
  | cons w ws ih => exact ih

/-- The checks let corresponding requests through. -/
theorem requestChild_accords (hs : ρ.Sessions s s') (hc : ρ.Contexts c c')
    (hlooks : ρ.Unseen ((n.read? SubprocessSettings.decode).elim [] fun t => inputMappingLooks t.inputMapping s.vars)) :
    ρ.Accords (fun p p' => p'.1 = p.1 ∧ ρ.Requests p.2 p'.2) (requestChild c n) (requestChild c' n) s s' := by
  refine .settings hs fun t ht => .demand hs fun workflowId _ => ?_
  rw [ht, Option.elim_some] at hlooks
  rw [hc.env.settings, hc.nestingLevel]
  refine Beside.bind (childLevel_accords hs _ _) fun level level' u u' hrun hlevel hu => ?_
  have hvars : u.vars = s.vars := (congrArg (·.2.vars) hrun).symm.trans (vars_childLevel _ _)
  have hreport : ρ.Accords Eq (fromStore (·.validate workflowId (t.version.getD latestToken)))
      (fromStore (·.validate workflowId (t.version.getD latestToken))) u u' :=
    .fromStore hu (hu.world.store.validate _ _).symm
  refine Beside.bind hreport fun report report' v v' hrun' hsame hv => ?_
  have hvars' : v.vars = u.vars := by
    cases hrun'
    rfl
  subst hlevel hsame
  refine Beside.bind (warnAll_accords hv _) fun _ _ x x' hrun'' _ hx => ?_
  have hvars'' : x.vars = v.vars := (congrArg (·.2.vars) hrun'').symm.trans (vars_warnAll _)
  split
  · refine Accords.vars (.pure hx ⟨rfl, rfl, ?_, .some hc.instanceId, rfl, rfl⟩)
    rw [hvars''.trans (hvars'.trans hvars)]
    exact (hvars''.trans (hvars'.trans hvars) ▸ hx.vars).childVariables _ hlooks
  · exact .throw hx rfl

/-! ## waiting for a child -/

/-- the node waits for its child, and is joined to it -/
theorem awaitChild_accords {t : SubprocessSettings} {id id' : String} (hs : ρ.Sessions s s') (hc : ρ.Contexts c c')
    (hr : ρ.Requests r r') (hid : ρ.Id id id') (hgenerated : Generated ρ.names id s.world) :
    ρ.Accords ρ.Outcomes (awaitChild c n t r id) (awaitChild c' n t r' id') s s' := by
  have htime := hs.world.tick.now hc.env
  have hjoined : ρ.Links
      { parentId := c.instanceId, parentNodeId := n.id, childId := id, outputMapping := t.outputMapping
        isolated := t.isolated, nestingLevel := r.nestingLevel, createdAt := c.env.epoch.addNanos (s.world.ticks + 1) }
      { parentId := c'.instanceId, parentNodeId := n.id, childId := id', outputMapping := t.outputMapping
        isolated := t.isolated, nestingLevel := r'.nestingLevel,
        createdAt := c'.env.epoch.addNanos (s'.world.ticks + 1) } :=
    ⟨hc.instanceId, rfl, hid, rfl, rfl, hr.nestingLevel, htime⟩
  have hlink := hs.world.tick.link hjoined hgenerated
  refine ⟨.ok (.waiting .subprocess hid none ?_), hs.withWorld hlink.unread⟩
  rw [hr.nestingLevel]
  exact .ofMembers (.cons _ (.ofId hid) (Binds.refl _))

/-- The child that a node asks for in a session is started alike in both runs. -/
def ChildAlike (ρ : Renaming) (c c' : NodeContext) (n : Node) (s : Session) : Prop :=
  n.kind = .subprocess → ∀ t r u, runFrom (requestChild c n) s = (.ok (t, r), u) → ∀ r' w', ρ.Requests r r' →
    ρ.Worlds u.world w' → ρ.Tallies ρ.Id (start c.env r) (start c'.env r') u.world w'

/-- What the checks have let through is started in both runs, and the node waits for it. -/
theorem subprocess_accords (hk : n.kind = .subprocess) (hs : ρ.Sessions s s') (hc : ρ.Contexts c c')
    (hl : c.launcher = some (start c.env)) (hl' : c'.launcher = some (start c'.env))
    (hlooks : ρ.Unseen ((n.read? SubprocessSettings.decode).elim [] fun t => inputMappingLooks t.inputMapping s.vars))
    (hchild : ρ.ChildAlike c c' n s) : ρ.Accords ρ.Outcomes (n.subprocess c) (n.subprocess c') s s' := by
  rw [subprocess_eq, subprocess_eq]
  unfold subprocessOr
  rw [hl, hl']
  refine Beside.bind (requestChild_accords hs hc hlooks) fun (t, r) (t', r') u u' hrun hp hu => ?_
  obtain ⟨rfl, hr⟩ := hp
  have hfresh : Fresh c.env.idName u.world := by
    rw [hc.env.names]
    exact hu.world.fresh
  obtain ⟨id, v, hstarted, hnew⟩ := requested_started (follows_start c.env) hfresh (requestChild_ok hrun).2
  obtain ⟨hanswers, hworlds⟩ := hchild hk t' r u hrun r' u'.world hr hu.world
  rcases hrun' : runFrom (start c'.env r') u'.world with ⟨answer, v'⟩
  rw [hstarted, hrun'] at hanswers hworlds
  cases hanswers with
  | @ok _ id' hid =>
    simp only
    rw [runFrom_bind_ok (runFrom_launchOr_ok hstarted), runFrom_bind_ok (runFrom_launchOr_ok hrun')]
    obtain ⟨m, -, hm, hname⟩ := hnew.between
    rw [hc.env.names] at hname
    exact awaitChild_accords ⟨hu.vars, hu.loops, hworlds⟩ hc hr hid ⟨m, hm, hname⟩

/-- a node of any kind -/
theorem handle_alike (hs : ρ.Sessions s s') (hc : ρ.Contexts c c') (hl : c.launcher = some (start c.env))
    (hl' : c'.launcher = some (start c'.env)) (hlooks : ρ.Unseen (n.looksAt s.vars)) (hchild : ρ.ChildAlike c c' n s) :
    ρ.Accords ρ.Outcomes (n.handle c) (n.handle c') s s' := by
  by_cases hk : n.kind = .subprocess
  · have hh : ∀ c, n.handle c = n.subprocess c := fun c => by rw [handle, hk]
    unfold Node.looksAt at hlooks
    rw [hh, hh]
    exact subprocess_accords hk hs hc hl hl' (by rwa [hk] at hlooks) hchild
  · exact handle_accords hk hs hc hlooks

/-! ## attempts -/

/-- an outcome and a session after a node, in the two runs -/
structure Ends (ρ : Renaming) (p p' : Outcome × Session) : Prop where
  outcome : ρ.Outcomes p.1 p'.1
  session : ρ.Sessions p.2 p'.2

theorem Sessions.outsideLoops (hs : ρ.Sessions s s') (hc : ρ.Contexts c c') :
    ρ.Sessions (outsideLoops c s) (outsideLoops c' s') := by
  refine { hs with loops := ?_ }
  show ({ maxDepth := c'.env.settings.maxLoopDepth } : LoopStack) = { maxDepth := c.env.settings.maxLoopDepth }
  rw [hc.env.settings]

theorem ends_of_accords
    (h : ρ.Accords ρ.Outcomes (n.handle c) (n.handle c') (outsideLoops c s) (outsideLoops c' s')) :
    ρ.Ends ((n.attempt c).run s) ((n.attempt c').run s') := by
  obtain ⟨hanswers, hsession⟩ := h
  rw [attempt_run, attempt_run, execute_run, execute_run]
  refine ⟨?_, hsession⟩
  generalize (runFrom (n.handle c) (outsideLoops c s)).1 = answer at hanswers ⊢
  generalize (runFrom (n.handle c') (outsideLoops c' s')).1 = answer' at hanswers ⊢
  cases hanswers with
  | ok ho => exact ho
  | error he =>
    subst he
    exact .refl rfl

theorem attempt_ends (hs : ρ.Sessions s s') (hc : ρ.Contexts c c') (hl : c.launcher = some (start c.env))
    (hl' : c'.launcher = some (start c'.env)) (hlooks : ρ.Unseen (n.looksAt s.vars))
    (hchild : ρ.ChildAlike c c' n (outsideLoops c s)) : ρ.Ends ((n.attempt c).run s) ((n.attempt c').run s') :=
  ends_of_accords (handle_alike (hs.outsideLoops hc) hc hl hl' hlooks hchild)

theorem Outcomes.retried {o o' : Outcome} (h : ρ.Outcomes o o') (retries : Nat) :
    ρ.Outcomes { o with retries := retries } { o' with retries := retries } := { h with retries := rfl }

theorem Outcomes.transientError? {o o' : Outcome} (h : ρ.Outcomes o o') : o'.transientError? = o.transientError? := by
  unfold Outcome.transientError? Outcome.isFailed
  rw [h.status, h.error]

/-- Every attempt begins with the variables of the first: one that has failed leaves no trace. -/
theorem retrying_ends (hk : n.kind ≠ .subprocess) (hs : ρ.Sessions s s') (hc : ρ.Contexts c c')
    (hlooks : ρ.Unseen (n.looksAt s.vars)) (left retries : Nat) :
    ρ.Ends ((retrying (n.attempt c) (n.noteRetry c) left retries).run s)
      ((retrying (n.attempt c') (n.noteRetry c') left retries).run s') := by
  induction left generalizing retries s s' with
  | zero =>
    obtain ⟨ho, ht⟩ := ends_of_accords (handle_accords hk (hs.outsideLoops hc) hc hlooks)
    rw [retrying_zero_run, retrying_zero_run]
    exact ⟨ho.retried retries, ht⟩
  | succ left ih =>
    obtain ⟨ho, ht⟩ := ends_of_accords (handle_accords hk (hs.outsideLoops hc) hc hlooks)
    rw [retrying_succ_run, retrying_succ_run, ho.transientError?]
    cases herror : ((n.attempt c).run s).1.transientError? with
    | none => exact ⟨ho.retried retries, ht⟩
    | some error =>
      have huntouched : Untouched (outsideLoops c s) ((n.attempt c).run s).2 :=
        execute_untouched ⟨fun h => absurd h hk, fun h => absurd h hk⟩ (Outcome.failed_of_transient herror)
      have hnoted : ρ.Sessions ((n.noteRetry c (retries + 1) error).run ((n.attempt c).run s).2).2
          ((n.noteRetry c' (retries + 1) error).run ((n.attempt c').run s').2).2 :=
        ⟨ht.vars, ht.loops, ht.world.unread⟩
      refine ih hnoted ?_ (retries + 1)
      show ρ.Unseen (n.looksAt ((n.attempt c).run s).2.vars)
      rw [huntouched.vars]
      exact hlooks

/-- **A node that looks at no generated id ends alike in both runs**, its repetitions included, if the child that it
asks for does. -/
theorem runWithRetries_ends (hs : ρ.Sessions s s') (hc : ρ.Contexts c c') (hl : c.launcher = some (start c.env))
    (hl' : c'.launcher = some (start c'.env)) (hlooks : ρ.Unseen (n.looksAt s.vars))
    (hchild : ρ.ChildAlike c c' n (outsideLoops c s)) :
    ρ.Ends ((n.runWithRetries c).run s) ((n.runWithRetries c').run s') := by
  unfold runWithRetries
  rw [hc.env.settings]
  by_cases hk : n.kind = .subprocess
  · have hleft := retriesOf_subprocess c.env.settings hk
    obtain ⟨ho, ht⟩ := attempt_ends hs hc hl hl' hlooks hchild
    rw [hleft, retrying_zero_run, retrying_zero_run]
    exact ⟨ho.retried 0, ht⟩
  · exact retrying_ends hk hs hc hlooks _ _

end Renaming
end Workflows
