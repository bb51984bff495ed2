import Workflows.Proofs.Engine.Twin

/-!
# The trail of a walk

A walk answers with the record of its instance.  Here it answers with its trail as well: the nodes
that it has run, and the ids that were pending when it was over.

* `Visited`   a node that was run
* `Done`      a node that is done, and the route that was chosen behind it
* `trail`     the walk with its trail
* `Charted`   how the trail agrees with the log of the record

Main statements: without the trail it is the walk (`trail_eq_walk`), and every id that was pending
or selected has been run or is left (`trail_charted`).
-/

namespace Workflows

/-- the nodes of a log, with the results of their runs -/
def Instance.entries (i : Instance) : List (String × NodeStatus) :=
  i.log.map fun e => (e.nodeId, e.status)

namespace Engine

structure Visited where
  node : Node
  outcome : Outcome
  /-- the walk has gone on behind the node -/
  passed : Bool

structure Done where
  node : Node
  route : Option String

/-- The node, if it is done.  A node that has taken over the outcome of its child has no route. -/
def Visited.done? (v : Visited) : Option Done :=
  if v.outcome.status.isDone then some ⟨v.node, v.outcome.route⟩
  else if v.passed then some ⟨v.node, none⟩
  else none

structure Trail where
  visits : List Visited
  /-- the ids that were pending when the walk was over -/
  left : List String

def Trail.behind (v : Visited) (t : Trail) : Trail := ⟨v :: t.visits, t.left⟩

/-- A node was run, or is pending still. -/
def Trail.Accounts (t : Trail) (id : String) : Prop :=
  id ∈ t.visits.map (·.node.id) ∨ id ∈ t.left

section
variable (env : Env) (launcher : Launcher)

/-- a walk that runs no node -/
def untrodden (d : Definition) (pending : List String) (i : Instance) :
    Run EngineError (Instance × Trail) := do
  return (← walk env launcher d 0 pending i, ⟨[], pending⟩)

/-- the walk with its trail -/
def trail (d : Definition) : (steps : Nat) → (pending : List String) → Instance →
    Run EngineError (Instance × Trail)
  | 0, pending, i => untrodden env launcher d pending i
  | _ + 1, [], i => untrodden env launcher d [] i
  | steps + 1, id :: pending, i =>
    match d.findNode? id with
    | none => untrodden env launcher d (id :: pending) i
    | some n => do
      let (o, i) ← runNode env launcher i n
      match ← afterNode env d i n o with
      | .visit targets i =>
        let (j, t) ← trail d steps (targets ++ pending) i
        return (j, t.behind ⟨n, o, true⟩)
      | .stop j => return (j, ⟨[⟨n, o, false⟩], pending⟩)

end

variable {env : Env} {launcher : Launcher} {names : Nat → String} {d : Definition} {f : Frame}
  {fs : List Frame} {w w' u : World} {i j : Instance} {n : Node} {o : Outcome}

theorem untrodden_fst (d : Definition) (pending : List String) (i : Instance) :
    (do return (← untrodden env launcher d pending i).1) = walk env launcher d 0 pending i := by
  simp only [untrodden, bind_assoc, pure_bind, bind_pure]

/-- **Without its trail it is the walk.** -/
theorem trail_eq_walk (d : Definition) (steps : Nat) (pending : List String) (i : Instance) :
    (do return (← trail env launcher d steps pending i).1) =
      walk env launcher d steps pending i := by
  induction steps generalizing pending i with
  | zero => exact untrodden_fst d pending i
  | succ steps ih =>
    cases pending with
    | nil =>
      rw [walk_nil, ← walk_nil]
      exact untrodden_fst d [] i
    | cons id pending =>
      cases hn : d.findNode? id with
      | none =>
        rw [walk_of_missing hn, ← walk_of_missing hn 0 pending i, ← untrodden_fst]
        unfold trail
        rw [hn]
      | some n =>
        rw [walk_of_node hn]
        unfold trail
        rw [hn]
        simp only [bind_assoc, walkBehind]
        congr 1
        funext ran
        congr 1
        funext next
        cases next with
        | visit targets k =>
          show _ = walk env launcher d steps (targets ++ pending) k
          rw [← ih]
          simp only [bind_assoc, pure_bind]
        | stop k => simp only [pure_bind]

/-! ## what follows a node -/

inductive Next.Leads (d : Definition) (i : Instance) (n : Node) (o : Outcome) : Next → Prop
  | finish {j : Instance} (hl : j.log = i.log) (hk : n.kind = .finish) :
    Leads d i n o (.visit [] j)
  | done {j : Instance} {x : Done} (hl : j.log = i.log)
    (hx : Visited.done? ⟨n, o, true⟩ = some x) :
    Leads d i n o (.visit (d.nextNodes n x.route) j)
  | stop {j : Instance} (hl : j.log = i.log) (ho : o.status.isDone = false)
    (hj : j.status = .waiting ∨ j.status = .failed) : Leads d i n o (.stop j)

theorem rememberChild_log (i child : Instance) (nodeId : String) :
    (i.rememberChild child nodeId).log = i.log := by
  obtain ⟨children, h⟩ := Instance.rememberChild_eq i child nodeId
  rw [h]

theorem afterNode_leads (h : Current names f fs i w) (hf : Fits w.store i n o)
    {next : Next} (hrun : runFrom (afterNode env d i n o) w = (.ok next, u)) :
    next.Leads d i n o := by
  have hdone : o.status.isDone = true → runFrom
      (if n.kind = .finish then return .visit [] i else return .visit (d.nextNodes n o.route) i :
        Run EngineError Next) w = (.ok next, u) → next.Leads d i n o := by
    intro ho hrun
    by_cases hk : n.kind = .finish
    · rw [if_pos hk] at hrun
      cases hrun
      exact .finish rfl hk
    · rw [if_neg hk] at hrun
      cases hrun
      exact .done (x := ⟨n, o.route⟩) rfl (if_pos ho)
  have hpark : o.status = .waiting →
      runFrom (do return .stop (← park env i o) : Run EngineError Next) w = (.ok next, u) →
      next.Leads d i n o := by
    intro ho hrun
    rw [runFrom_bind_ok (runFrom_park env h.storedById o)] at hrun
    cases hrun
    exact .stop rfl (by rw [ho]; rfl) (.inl rfl)
  unfold afterNode at hrun
  cases ho : o.status with
  | completed | breakLoop | continueLoop =>
    rw [ho] at hrun
    exact hdone (by rw [ho]; rfl) hrun
  | failed =>
    rw [ho] at hrun
    have hfail := runFrom_failInstance env h.storedById rfl
      (o.error.getD ("Node " ++ n.id ++ " failed"))
    rw [runFrom_bind_ok hfail] at hrun
    cases hrun
    exact .stop rfl (by rw [ho]; rfl) (.inr rfl)
  | waiting =>
    rw [ho] at hrun
    simp only at hrun
    by_cases hk : n.kind = .subprocess
    · rw [if_pos hk] at hrun
      obtain ⟨child, link, hc⟩ := hf.subprocess hk ho
      by_cases ht : child.status.isTerminal = true
      · by_cases hcompleted : child.status = .completed
        · rw [runFrom_bind_ok (runFrom_reconcile_completed env h.storedById hc ht hcompleted)]
            at hrun
          cases hrun
          refine .done (x := ⟨n, none⟩) (rememberChild_log i child link.parentNodeId) ?_
          unfold Visited.done?
          rw [ho]
          rfl
        · rw [runFrom_bind_ok (runFrom_reconcile_failed env h.storedById hc ht hcompleted)] at hrun
          cases hrun
          exact .stop (rememberChild_log i child link.parentNodeId) (by rw [ho]; rfl) (.inr rfl)
      · rw [runFrom_bind_ok (runFrom_reconcile_none env hc ht)] at hrun
        exact hpark ho hrun
    · rw [if_neg hk] at hrun
      exact hpark ho hrun

/-! ## the trail and the log -/

def Visited.entry (v : Visited) : String × NodeStatus := (v.node.id, v.outcome.status)

/-- A trail agrees with the record of its walk: nothing that was pending or selected is lost. -/
structure Charted (d : Definition) (pending : List String) (i : Instance) (t : Trail)
    (j : Instance) : Prop where
  entries : j.entries = i.entries ++ t.visits.map Visited.entry
  pending : ∀ id ∈ pending, t.Accounts id
  selected : ∀ v ∈ t.visits, ∀ x, v.done? = some x → x.node.kind ≠ .finish →
    ∀ id ∈ d.nextNodes x.node x.route, t.Accounts id
  status : (j.status = .completed ∧ t.left = []) ∨ j.status = .waiting ∨ j.status = .failed

theorem entries_of_log (h : j.log = i.log) : j.entries = i.entries := by
  rw [Instance.entries, h]
  rfl

theorem Trail.Accounts.behind {t : Trail} {id : String} (h : t.Accounts id) (v : Visited) :
    (t.behind v).Accounts id :=
  h.imp_left (List.mem_cons_of_mem v.node.id)

theorem charted_untrodden (hl : j.log = i.log) (pending : List String)
    (hj : (j.status = .completed ∧ pending = []) ∨ j.status = .failed) :
    Charted d pending i ⟨[], pending⟩ j := by
  refine ⟨?_, fun id hid => .inr hid, fun v hv => absurd hv List.not_mem_nil, hj.imp_right .inr⟩
  rw [entries_of_log hl]
  exact (List.append_nil _).symm

theorem untrodden_charted (h : Current names f fs i w) (maxLevel : Nat) (pending : List String) :
    ∃ j t u, runFrom (untrodden env launcher f.definition pending i) w = (.ok (j, t), u) ∧
      Halted names maxLevel f fs w u i j ∧ Charted f.definition pending i t j := by
  have hfails : ∀ error, ∃ j u, runFrom (failInstance env i error) w = (.ok j, u) ∧
      Halted names maxLevel f fs w u i j ∧ j.log = i.log ∧ j.status = .failed := fun error =>
    ⟨_, _, runFrom_failInstance env h.storedById rfl error,
      h.halted maxLevel (.fail error (env.time w)) (env.time w), rfl, rfl⟩
  unfold untrodden
  cases pending with
  | nil =>
    obtain ⟨j, u, hrun, hhalted, hlog, hstatus⟩ : ∃ j u,
        runFrom (enterStatus env i .completed) w = (.ok j, u) ∧
          Halted names maxLevel f fs w u i j ∧ j.log = i.log ∧ j.status = .completed :=
      ⟨_, _, runFrom_enterStatus env h.storedById .completed,
        h.halted maxLevel (.complete (env.time w)) (env.time w), rfl, rfl⟩
    rw [walk_nil, runFrom_bind_ok hrun]
    exact ⟨j, _, u, rfl, hhalted, charted_untrodden hlog [] (.inl ⟨hstatus, rfl⟩)⟩
  | cons id pending =>
    have hwalk : ∃ error, walk env launcher f.definition 0 (id :: pending) i =
        failInstance env i error := by
      unfold walk
      cases f.definition.findNode? id with
      | none => exact ⟨_, rfl⟩
      | some n => exact ⟨_, rfl⟩
    obtain ⟨error, hwalk⟩ := hwalk
    obtain ⟨j, u, hrun, hhalted, hlog, hstatus⟩ := hfails error
    rw [hwalk, runFrom_bind_ok hrun]
    exact ⟨j, _, u, rfl, hhalted, charted_untrodden hlog _ (.inr hstatus)⟩

theorem runNode_entries (hl : Starts names env.settings.maxNestingLevel launcher)
    (h : Current names f fs i w) (hn : f.definition.findNode? n.id = some n)
    (hrun : runFrom (runNode env launcher i n) w = (.ok (o, j), u)) :
    j.entries = i.entries ++ [(n.id, o.status)] := by
  have hnode := (ended_stretch hl h hn).1
  rw [runFrom_runNode env launcher i n hnode.stored] at hrun
  cases hrun
  exact List.map_append

/-- a trail that stops at its first node -/
theorem charted_stop {k : Instance} (hn : j.entries = i.entries ++ [(n.id, o.status)])
    (hl : k.log = j.log) (ho : o.status.isDone = false)
    (hk : k.status = .waiting ∨ k.status = .failed) (pending : List String) :
    Charted d (n.id :: pending) i ⟨[⟨n, o, false⟩], pending⟩ k := by
  refine ⟨(entries_of_log hl).trans hn, fun id hid => ?_, fun v hv x hx => ?_, .inr hk⟩
  · rcases List.mem_cons.mp hid with rfl | hid
    · exact .inl List.mem_cons_self
    · exact .inr hid
  · rw [List.mem_singleton.mp hv] at hx
    unfold Visited.done? at hx
    rw [ho] at hx
    cases hx

/-- a trail that goes on behind its first node, whose targets were pending for the rest of it -/
theorem Charted.behind {k l : Instance} {targets pending : List String} {t : Trail}
    (h : Charted d (targets ++ pending) k t l)
    (hn : j.entries = i.entries ++ [(n.id, o.status)]) (hl : k.log = j.log)
    (hx : ∀ x, Visited.done? ⟨n, o, true⟩ = some x → x.node.kind ≠ .finish →
      d.nextNodes x.node x.route = targets) :
    Charted d (n.id :: pending) i (t.behind ⟨n, o, true⟩) l := by
  refine ⟨?_, fun id hid => ?_, fun v hv x hvx hk id hid => ?_, h.status⟩
  · rw [h.entries, entries_of_log hl, hn, List.append_assoc]
    rfl
  · rcases List.mem_cons.mp hid with rfl | hid
    · exact .inl List.mem_cons_self
    · exact (h.pending id (List.mem_append_right targets hid)).behind _
  · rcases List.mem_cons.mp hv with rfl | hv
    · rw [hx x hvx hk] at hid
      exact (h.pending id (List.mem_append_left pending hid)).behind _
    · exact (h.selected v hv x hvx hk id hid).behind _

theorem Next.Leads.targets {targets : List String} (h : (Next.visit targets j).Leads d i n o)
    {x : Done} (hx : Visited.done? ⟨n, o, true⟩ = some x) (hk : x.node.kind ≠ .finish) :
    d.nextNodes x.node x.route = targets := by
  have hnode : x.node = n := by
    unfold Visited.done? at hx
    split at hx
    · cases hx
      rfl
    · cases hx
      rfl
  cases h with
  | finish _ hf => exact absurd hf (hnode ▸ hk)
  | done _ hy =>
    rw [hnode, Option.some.inj (hx.symm.trans hy)]

/-- **Nothing that a walk selects is lost on its way**: it is run, or it is pending when the walk is
over.  The induction is on the steps that are left. -/
theorem trail_charted (hl : Starts names env.settings.maxNestingLevel launcher) (steps : Nat)
    (pending : List String) (h : Current names f fs i w) :
    ∃ j t u, runFrom (trail env launcher f.definition steps pending i) w = (.ok (j, t), u) ∧
      Halted names env.settings.maxNestingLevel f fs w u i j ∧
      Charted f.definition pending i t j := by
  induction steps generalizing pending i w with
  | zero => exact untrodden_charted h _ pending
  | succ steps ih =>
    cases pending with
    | nil => exact untrodden_charted h _ []
    | cons id pending =>
      cases hn : f.definition.findNode? id with
      | none =>
        unfold trail
        rw [hn]
        exact untrodden_charted h _ (id :: pending)
      | some n =>
        obtain rfl := Definition.findNode?_id hn
        obtain ⟨o, k, v, hnode, hstretch, hk, hfits⟩ := runNode_stretch hl h hn
        have hentries := runNode_entries hl h hn hnode
        have hcurrent := h.after hstretch hk
        obtain ⟨next, u, hafter, hnext⟩ :=
          afterNode_follows env hcurrent env.settings.maxNestingLevel hfits
        have hleads := afterNode_leads hcurrent hfits hafter
        unfold trail
        rw [hn]
        simp only
        rw [runFrom_bind_ok hnode, runFrom_bind_ok hafter]
        cases next with
        | visit targets l =>
          obtain ⟨j, t, u', hrun, hj, ht⟩ :=
            ih (targets ++ pending) (hcurrent.after hnext.1 hnext.2)
          have hlog : l.log = k.log := by
            cases hleads with
            | finish hlog => exact hlog
            | done hlog => exact hlog
          refine ⟨j, t.behind ⟨n, o, true⟩, u', ?_,
            ⟨(hstretch.trans hnext.1).trans hj.stretch, hj.status⟩,
            ht.behind hentries hlog fun x hx hf => hleads.targets hx hf⟩
          exact runFrom_bind_ok hrun _
        | stop j =>
          cases hleads with
          | stop hlog ho hj =>
            exact ⟨j, _, u, rfl, ⟨hstretch.trans hnext.stretch, hnext.status⟩,
              charted_stop hentries hlog ho hj pending⟩

end Engine
end Workflows
