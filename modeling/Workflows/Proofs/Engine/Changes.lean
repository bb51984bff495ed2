import Workflows.Proofs.Engine.Safeguard
import Workflows.Proofs.Node.Declared

/-!
# What a walk changes in the variables

A step of a walk runs a node, records it, and does what follows it: it goes on, waits, fails, or takes over what a
child gives back that has ended meanwhile.  Nothing is asked of the store or of the launcher.

* `Merged`            a completed child whose outputs are taken over behind a node
* `Node.Declares`     the names under which a step may change variables, by the outcome of its node
* `Frames`            variables that differ at such names only
* `Node.Names`        all names that a node declares
* `WritesLogged`      variables that differ at names only that nodes in the new part of the log declare

Main statements: a step changes variables of names only that its node declares, and none if the node fails or waits
(`step_frames`); a walk changes those only that the nodes in its log declare (`walk_written`).
-/

namespace Workflows

/-- what a child gives back stands under names of the mapping -/
theorem childOutputs_name {child : Instance} {mapping : Dict String} {e : String × Json}
    (h : e ∈ childOutputs child mapping) : e.1 ∈ Dict.keys mapping := by
  obtain ⟨m, hm, hvalue⟩ := List.mem_filterMap.mp h
  obtain ⟨v, -, rfl⟩ := Option.map_eq_some_iff.mp hvalue
  exact List.mem_map_of_mem hm

namespace Engine
variable {env : Env} {launcher : Launcher} {i j k : Instance} {n : Node} {d : Definition} {o : Outcome}
  {next : Next} {u v w : World}

/-! ## records -/

/-- A record with the same variables and the same log. -/
structure SameResults (i j : Instance) : Prop where
  vars : j.vars = i.vars := by rfl
  log : j.log = i.log := by rfl

theorem SameResults.trans (h : SameResults i j) (h' : SameResults j k) : SameResults i k :=
  ⟨h'.vars.trans h.vars, h'.log.trans h.log⟩

theorem sameResults_rememberChild (i child : Instance) (nodeId : String) :
    SameResults i (i.rememberChild child nodeId) := by
  obtain ⟨children, h⟩ := Instance.rememberChild_eq i child nodeId
  rw [h]
  exact {}

theorem persist_ok (h : runFrom (persist env i) w = (.ok j, u)) :
    j = i.written (env.time w) ∧ u = w.put j := by
  rcases persist_cases env i w with ⟨e, hrun⟩ | ⟨stored, -, hrun⟩
  · rw [hrun] at h
    cases h
  · rw [hrun] at h
    cases h
    exact ⟨rfl, rfl⟩

theorem persistStatus_ok (h : runFrom (persistStatus env i) w = (.ok j, u)) : SameResults i j := by
  obtain ⟨k, v, hpersist, h⟩ := ok_of_runFrom_bind h
  rw [runFrom_lift_bind] at h
  cases h
  rw [(persist_ok hpersist).1]
  exact {}

theorem enterStatus_ok {status : InstanceStatus} (h : runFrom (enterStatus env i status) w = (.ok j, u)) :
    SameResults i j := by
  unfold enterStatus at h
  rw [runFrom_lift_bind] at h
  exact SameResults.trans {} (persistStatus_ok h)

theorem failInstance_ok {error : String} (h : runFrom (failInstance env i error) w = (.ok j, u)) :
    SameResults i j := by
  unfold failInstance at h
  rw [runFrom_lift_bind] at h
  exact SameResults.trans {} (persistStatus_ok h)

theorem park_ok (h : runFrom (park env i o) w = (.ok j, u)) : SameResults i j := by
  unfold park at h
  rw [runFrom_lift_bind] at h
  exact SameResults.trans {} (persistStatus_ok h)

/-! ## children that are taken over -/

/-- A child that has completed before its parent could wait for it. -/
structure Merged (st : Store) (n : Node) (o : Outcome) (child : Instance) (link : ChildLink) : Prop where
  kind : n.kind = .subprocess
  waiting : o.status = .waiting
  finished : finishedChild? st o = some (child, link)
  completed : child.status = .completed

theorem takeOver_written (i child : Instance) (nodeId : String) (link : ChildLink) :
    Vars.Written (fun name => name = nodeId ∨ name ∈ Dict.keys link.outputMapping) i.vars
      (takeOver i child nodeId link).vars := by
  have hsame : Vars.Written (fun name => name = nodeId ∨ name ∈ Dict.keys link.outputMapping) i.vars i.vars := .refl
  refine (hsame.insert _ (.inl rfl)).trans (Vars.Written.overlay _ fun e he => .inr ?_)
  exact childOutputs_name he

/-- the record behind an outcome that was taken over, or has made the parent fail -/
theorem applyChild_ok {p : Progress} {child : Instance} {link : ChildLink}
    (h : runFrom (applyChild env i n child link) w = (.ok p, u)) :
    p.record.log = i.log ∧ Vars.Written (fun name => child.status = .completed ∧
      (name = n.id ∨ name ∈ Dict.keys link.outputMapping)) i.vars p.record.vars := by
  have hremember := sameResults_rememberChild i child link.parentNodeId
  by_cases hc : child.status = .completed
  · rw [runFrom_applyChild_goesOn env i n link hc] at h
    cases h
    refine ⟨hremember.log, ?_⟩
    rw [← hremember.vars]
    exact (takeOver_written _ child n.id link).mono fun name hname => ⟨hc, hname⟩
  · unfold applyChild at h
    rw [if_neg hc] at h
    obtain ⟨j, v, hfail, h⟩ := ok_of_runFrom_bind h
    cases h
    have hsame := hremember.trans (failInstance_ok hfail)
    refine ⟨hsame.log, ?_⟩
    show Vars.Written _ i.vars j.vars
    rw [hsame.vars]
    exact .refl

theorem reconcile_ok {p : Progress} (h : runFrom (reconcile env i n o) w = (.ok (some p), u)) :
    ∃ child link, finishedChild? w.store o = some (child, link) ∧ p.record.log = i.log ∧
      Vars.Written (fun name => child.status = .completed ∧
        (name = n.id ∨ name ∈ Dict.keys link.outputMapping)) i.vars p.record.vars := by
  cases hf : finishedChild? w.store o with
  | none =>
    rw [runFrom_reconcile_unfinished hf] at h
    cases h
  | some found =>
    obtain ⟨child, link⟩ := found
    rw [runFrom_reconcile_finished hf] at h
    obtain ⟨q, v, happly, h⟩ := ok_of_runFrom_bind h
    obtain ⟨hlog, hwritten⟩ := applyChild_ok happly
    refine ⟨child, link, rfl, ?_⟩
    cases q with
    | goesOn j =>
      obtain ⟨k, v', hpersist, h⟩ := ok_of_runFrom_bind h
      cases h
      rw [(persist_ok hpersist).1]
      exact ⟨hlog, hwritten⟩
    | stopped j =>
      cases h
      exact ⟨hlog, hwritten⟩

/-- What is written behind a node changes variables only where a child is taken over. -/
theorem afterNode_ok (h : runFrom (afterNode env d i n o) w = (.ok next, u)) :
    next.record.log = i.log ∧ Vars.Written (fun name => ∃ child link, Merged w.store n o child link ∧
      (name = n.id ∨ name ∈ Dict.keys link.outputMapping)) i.vars next.record.vars := by
  have hsame : ∀ {j : Instance}, SameResults i j → j.log = i.log ∧
      Vars.Written (fun name => ∃ child link, Merged w.store n o child link ∧
        (name = n.id ∨ name ∈ Dict.keys link.outputMapping)) i.vars j.vars := by
    intro j hj
    refine ⟨hj.log, ?_⟩
    rw [hj.vars]
    exact .refl
  have hdone : ∀ {targets : List String}, runFrom (if n.kind = .finish then return .visit [] i else
      return .visit targets i : Run EngineError Next) w = (.ok next, u) → SameResults i next.record := by
    intro targets h
    split at h
    · cases h
      exact {}
    · cases h
      exact {}
  have hparked : ∀ {v : World}, runFrom (do return .stop (← park env i o) : Run EngineError Next) v =
      (.ok next, u) → SameResults i next.record := by
    intro v h
    obtain ⟨j, v', hpark, h⟩ := ok_of_runFrom_bind h
    cases h
    exact park_ok hpark
  unfold afterNode at h
  cases hs : o.status with
  | completed | breakLoop | continueLoop =>
    rw [hs] at h
    exact hsame (hdone h)
  | failed =>
    rw [hs] at h
    obtain ⟨j, v, hfail, h⟩ := ok_of_runFrom_bind h
    cases h
    exact hsame (failInstance_ok hfail)
  | waiting =>
    rw [hs] at h
    dsimp only at h
    split at h
    · next hk =>
      obtain ⟨p, v, hreconcile, h⟩ := ok_of_runFrom_bind h
      cases p with
      | none => exact hsame (hparked h)
      | some p =>
        obtain ⟨child, link, hfinished, hlog, hwritten⟩ := reconcile_ok hreconcile
        have hrecord : next.record = p.record := by
          cases p with
          | goesOn j | stopped j =>
            cases h
            rfl
        rw [hrecord]
        exact ⟨hlog, hwritten.mono fun name ⟨hc, hname⟩ => ⟨child, link, ⟨hk, hs, hfinished, hc⟩, hname⟩⟩
    · exact hsame (hparked h)

/-! ## nodes -/

theorem runNode_ok (h : runFrom (runNode env launcher i n) w = (.ok (o, k), v)) :
    o = (nodeRun env launcher i n w).1 ∧
      k = (recorded env launcher i n w).written (env.time (ended env launcher i n w)) ∧
      v = (ended env launcher i n w).put k := by
  unfold runNode at h
  rw [runFrom_lift_bind, runFrom_lift_bind, runFrom_bind_ok (runFrom_inSession env _ _ _)] at h
  rw [runFrom_lift_bind, runFrom_lift_bind] at h
  obtain ⟨k', v', hpersist, h⟩ := ok_of_runFrom_bind h
  cases h
  obtain ⟨hk, hv⟩ := persist_ok hpersist
  exact ⟨rfl, hk, hv⟩

theorem record_written (i : Instance) (n : Node) (o : Outcome) (t t' : Instant) :
    Vars.Written (fun name => (o.status.isDone = true ∧ o.output.isSome = true) ∧ name = n.id) i.vars
      (i.record n o t t').vars := by
  unfold Instance.record
  cases o.output with
  | none => exact .refl
  | some value =>
    dsimp only
    split
    · next hdone => exact Vars.Written.refl.insert value ⟨⟨hdone, rfl⟩, rfl⟩
    · exact .refl

/-- The link of a child has the mapping of the node that has started it. -/
theorem ran_mapping {c : NodeContext} (h : Node.Ran c n w o u) (hk : n.kind = .subprocess)
    (hs : o.status = .waiting) {wait : Wait} {link : ChildLink} (hw : o.wait = some wait)
    (hl : u.store.getLink? wait.id = some link) : Dict.keys link.outputMapping = n.mappedNames := by
  cases h with
  | apart _ _ hfailed =>
    rw [hfailed hk] at hs
    cases hs
  | refused _ _ _ _ _ hfailed =>
    rw [hfailed] at hs
    cases hs
  | @launched _ _ r _ v' _ l _ _ _ _ _ hj h' _ ho =>
    cases Option.some.inj (ho.symm.trans hw)
    rw [h'.getLink?, World.getLink?_link, if_pos rfl] at hl
    cases hl
    obtain ⟨s, hs, hmapping⟩ := hj.mapping
    unfold Node.mappedNames Node.read?
    rw [hk, hmapping]
    dsimp only
    rw [hs]
    rfl

end Engine

/-! ## steps -/

/-- The names under which a step may change variables: the id of its node if that is done with an output or a child
was taken over, the names in its settings, and those of its mapping if a child was taken over. -/
inductive Node.Declares (n : Node) (o : Outcome) (merged : Prop) : String → Prop
  | own (hs : o.status.isDone = true) (ho : o.output.isSome = true) : Declares n o merged n.id
  | output {name : String} (hs : o.status = .completed) (h : name ∈ n.outputNames) : Declares n o merged name
  | summary (hm : merged) : Declares n o merged n.id
  | mapped {name : String} (hm : merged) (h : name ∈ n.mappedNames) : Declares n o merged name

/-- all names that a node declares -/
def Node.Names (n : Node) (name : String) : Prop :=
  name = n.id ∨ name ∈ n.outputNames ∨ name ∈ n.mappedNames

theorem Node.Declares.names {n : Node} {o : Outcome} {merged : Prop} {name : String}
    (h : n.Declares o merged name) : n.Names name := by
  cases h with
  | own => exact .inl rfl
  | output _ h => exact .inr (.inl h)
  | summary => exact .inl rfl
  | mapped _ h => exact .inr (.inr h)

namespace Engine
variable {env : Env} {launcher : Launcher} {i j k : Instance} {n : Node} {d : Definition} {o : Outcome}
  {next : Next} {u v w : World}

/-- Variables that differ only at names that a node declares, and not at all if it has failed or waits. -/
structure Frames (n : Node) (o : Outcome) (merged : Prop) (before after : Vars) : Prop where
  frame : ∀ name, ¬ n.Declares o merged name → Dict.get? after name = Dict.get? before name
  kept : o.status = .failed ∨ o.status = .waiting ∧ ¬ merged → after = before

theorem Frames.of_written {merged : Prop} {before after : Vars} (hm : merged → o.status = .waiting)
    (h : Vars.Written (n.Declares o merged) before after) : Frames n o merged before after := by
  refine ⟨fun name hname => h.get? hname, fun hs => h.eq_of_none fun name hname => ?_⟩
  cases hname with
  | own hdone =>
    rcases hs with hs | ⟨hs, -⟩
    · rw [hs] at hdone
      cases hdone
    · rw [hs] at hdone
      cases hdone
  | output hc =>
    rcases hs with hs | ⟨hs, -⟩
    · cases hs.symm.trans hc
    · cases hs.symm.trans hc
  | summary hmerged | mapped hmerged =>
    rcases hs with hs | ⟨-, hnot⟩
    · cases hs.symm.trans (hm hmerged)
    · exact hnot hmerged

def Merges (st : Store) (n : Node) (o : Outcome) : Prop := ∃ child link, Merged st n o child link

/-- what a node does to the variables of its instance -/
theorem runNode_written (h : runFrom (runNode env launcher i n) w = (.ok (o, k), v)) (merged : Prop) :
    Vars.Written (n.Declares o merged) i.vars k.vars := by
  obtain ⟨rfl, hk, -⟩ := runNode_ok h
  have hnode := Node.runWithRetries_framed (contextOf env launcher { i with currentNodeId := some n.id }) n
    (sessionOf env i.vars (begun env i n w))
  have hrecord := record_written ({ i with
    currentNodeId := some n.id, vars := (nodeRun env launcher i n w).2.vars } : Instance) n
    (nodeRun env launcher i n w).1 (env.time (begun env i n w)) (env.time (nodeRun env launcher i n w).2.world)
  rw [hk]
  refine (hnode.mono fun name hname => ?_).trans (hrecord.mono fun name hname => ?_)
  · exact .output hname.1 hname.2
  · obtain ⟨⟨hs, ho⟩, rfl⟩ := hname
    exact .own hs ho

theorem merged_mapping (h : runFrom (runNode env launcher i n) w = (.ok (o, k), v)) {child : Instance}
    {link : ChildLink} (hm : Merged v.store n o child link) :
    Dict.keys link.outputMapping = n.mappedNames := by
  obtain ⟨hkind, hwaiting, hfinished, -⟩ := hm
  obtain ⟨rfl, -, rfl⟩ := runNode_ok h
  unfold finishedChild? at hfinished
  cases hwait : (nodeRun env launcher i n w).1.wait with
  | none =>
    rw [hwait] at hfinished
    cases hfinished
  | some wait =>
    rw [hwait] at hfinished
    dsimp only at hfinished
    split at hfinished
    · next child' link' _ hlink =>
      split at hfinished
      · cases hfinished
        refine ran_mapping (nodeRun_ran env launcher i n w) hkind hwaiting hwait ?_
        rw [← (ended_quiet env launcher i n w).getLink?]
        exact hlink
      · cases hfinished
    · cases hfinished

/-- what a step does to the variables of its instance -/
theorem step_written (h : runFrom (runNode env launcher i n) w = (.ok (o, k), v))
    (ha : runFrom (afterNode env d k n o) v = (.ok next, u)) :
    Vars.Written (n.Declares o (Merges v.store n o)) i.vars next.record.vars := by
  refine (runNode_written h _).trans ((afterNode_ok ha).2.mono fun name hname => ?_)
  obtain ⟨child, link, hm, rfl | hmapped⟩ := hname
  · exact .summary ⟨child, link, hm⟩
  · rw [merged_mapping h hm] at hmapped
    exact .mapped ⟨child, link, hm⟩ hmapped

/-! ## walks -/

/-- the node of one of these entries declares a name -/
def NamedInLog (d : Definition) (entries : List LogEntry) (name : String) : Prop :=
  ∃ e ∈ entries, ∃ n, d.findNode? e.nodeId = some n ∧ n.Names name

theorem NamedInLog.mono {es es' : List LogEntry} {name : String} (h : NamedInLog d es name) (hsub : es ⊆ es') :
    NamedInLog d es' name := by
  obtain ⟨e, he, hname⟩ := h
  exact ⟨e, hsub he, hname⟩

/-- Entries are added to the log, and variables are written only that the nodes of these entries declare. -/
def WritesLogged (d : Definition) (i j : Instance) : Prop :=
  ∃ entries, j.log = i.log ++ entries ∧ Vars.Written (NamedInLog d entries) i.vars j.vars

theorem SameResults.writesLogged (h : SameResults i j) : WritesLogged d i j := by
  refine ⟨[], ?_, ?_⟩
  · rw [h.log, List.append_nil]
  · rw [h.vars]
    exact .refl

theorem WritesLogged.trans (h : WritesLogged d i j) (h' : WritesLogged d j k) : WritesLogged d i k := by
  obtain ⟨es, hlog, hvars⟩ := h
  obtain ⟨es', hlog', hvars'⟩ := h'
  refine ⟨es ++ es', ?_, ?_⟩
  · rw [hlog', hlog, List.append_assoc]
  · have hfirst := hvars.mono fun _ hname => hname.mono (List.subset_append_left es es')
    have hsecond := hvars'.mono fun _ hname => hname.mono (List.subset_append_right es es')
    exact hfirst.trans hsecond

/-- the log of a step -/
theorem runNode_log (h : runFrom (runNode env launcher i n) w = (.ok (o, k), v)) :
    ∃ e, k.log = i.log ++ [e] ∧ e.nodeId = n.id := by
  obtain ⟨-, rfl, -⟩ := runNode_ok h
  exact ⟨_, rfl, rfl⟩

theorem step_writesLogged (hn : d.findNode? n.id = some n)
    (h : runFrom (runNode env launcher i n) w = (.ok (o, k), v))
    (ha : runFrom (afterNode env d k n o) v = (.ok next, u)) : WritesLogged d i next.record := by
  obtain ⟨e, hlog, he⟩ := runNode_log h
  refine ⟨[e], (afterNode_ok ha).1.trans hlog, (step_written h ha).mono fun name hname => ?_⟩
  exact ⟨e, List.mem_singleton_self e, n, he ▸ hn, hname.names⟩

/-- **A walk changes variables only that nodes in its log declare.**  The induction is on the steps that are left. -/
theorem walk_written (steps : Nat) (pending : List String)
    (h : runFrom (walk env launcher d steps pending i) w = (.ok j, u)) : WritesLogged d i j := by
  induction steps generalizing pending i w with
  | zero =>
    cases pending with
    | nil => exact (enterStatus_ok h).writesLogged
    | cons id pending =>
      unfold walk at h
      split at h
      · exact (failInstance_ok h).writesLogged
      · exact (failInstance_ok h).writesLogged
  | succ steps ih =>
    cases pending with
    | nil => exact (enterStatus_ok h).writesLogged
    | cons id pending =>
      unfold walk at h
      split at h
      · exact (failInstance_ok h).writesLogged
      · next n hn =>
        obtain ⟨⟨o, k⟩, v, hnode, h⟩ := ok_of_runFrom_bind h
        obtain ⟨next, v', hafter, h⟩ := ok_of_runFrom_bind h
        have hstep := step_writesLogged (Definition.findNode?_self hn) hnode hafter
        cases next with
        | stop j' =>
          cases h
          exact hstep
        | visit targets i' => exact hstep.trans (ih (targets ++ pending) h)

/-! ## results of steps -/

/-- **A step changes the variables that its node declares, and no others.**  Neither a node that has failed changes
one, nor a node that waits, unless a completed child was taken over.  In a walk that is under way every step has a
result. -/
theorem step_frames (env : Env) (launcher : Launcher) (i : Instance) (n : Node) (w : World) :
    (∀ o k v, runFrom (runNode env launcher i n) w = (.ok (o, k), v) →
      Frames n o False i.vars k.vars ∧
      ∀ d next u, runFrom (afterNode env d k n o) v = (.ok next, u) →
        Frames n o (Merges v.store n o) i.vars next.record.vars) ∧
    ∀ names f fs, Starts names env.settings.maxNestingLevel launcher → Current names f fs i w →
      f.definition.findNode? n.id = some n →
      ∃ o k v next u, runFrom (runNode env launcher i n) w = (.ok (o, k), v) ∧
        runFrom (afterNode env f.definition k n o) v = (.ok next, u) := by
  constructor
  · intro o k v hnode
    refine ⟨.of_written False.elim (runNode_written hnode _), fun d next u hafter => ?_⟩
    exact .of_written (fun ⟨_, _, hm⟩ => hm.waiting) (step_written hnode hafter)
  · intro names f fs hl hcurrent hn
    obtain ⟨o, k, v, hnode, hstretch, hrunning, hfits⟩ := runNode_stretch hl hcurrent hn
    obtain ⟨next, u, hafter, -⟩ := afterNode_aftermath env (hcurrent.after hstretch hrunning) hfits
    exact ⟨o, k, v, next, u, hnode, hafter⟩

namespace Sample

/-- a workflow that ends at once, and one that takes over what it has found -/
def quick : Definition :=
  workflow "quick" .calculate (.obj [("expression", .str "6 * 7"), ("output_variable", .str "found")])

def ask : Node where
  id := "work"
  kind := .subprocess
  name := none
  data := .obj [("output_mapping", .obj [("answer", .str "found")]), ("workflow_id", .str "quick")]

def shopper : Definition := workflow "shopper" ask.kind ask.data

def market : World := { store := (({} : Store).saveWorkflow quick).saveWorkflow shopper }

def buyer : Instance := startedAs Sample.env (.of "shopper") shopper none market

/-- the buyer has been started -/
def buying : World := (starting Sample.env market).started buyer shopper

theorem market_fresh : Fresh names market := ⟨names_injective, fun _ _ => rfl, fun _ _ => rfl⟩

end Sample

open Workflows.Engine.Sample in
theorem step_frames_taken : Starts Sample.env.idName Sample.env.settings.maxNestingLevel (start Sample.env) ∧
    Current Sample.env.idName ⟨"i", shopper⟩ [] buyer buying ∧ shopper.findNode? ask.id = some ask ∧
    ∃ o k v next u, runFrom (runNode Sample.env (start Sample.env) buyer ask) buying = (.ok (o, k), v) ∧
      runFrom (afterNode Sample.env shopper k ask o) v = (.ok next, u) ∧
      Frames ask o False buyer.vars k.vars ∧
      Frames ask o (Merges v.store ask o) buyer.vars next.record.vars ∧
      Dict.get? next.record.vars "answer" = some (.int 42) := by
  have hstarts : Starts Sample.env.idName Sample.env.settings.maxNestingLevel (start Sample.env) := start_starts
  have hready : Ready Sample.env.idName [] market := ⟨market_fresh, fun _ hf => nomatch hf⟩
  have hcurrent : Current Sample.env.idName ⟨"i", shopper⟩ [] buyer buying :=
    started_current hready (.of "shopper") shopper none
  have hask : shopper.findNode? ask.id = some ask := rfl
  obtain ⟨hframes, hresult⟩ := step_frames Sample.env (start Sample.env) buyer ask buying
  obtain ⟨o, k, v, next, u, hnode, hafter⟩ := hresult _ _ _ hstarts hcurrent hask
  obtain ⟨hrecorded, hbehind⟩ := hframes o k v hnode
  refine ⟨hstarts, hcurrent, hask, o, k, v, next, u, hnode, hafter, hrecorded, hbehind _ _ _ hafter, ?_⟩
  have hanswer : ((runFrom (runNode Sample.env (start Sample.env) buyer ask >>= fun x =>
      afterNode Sample.env shopper x.2 ask x.1) buying).1.toOption.map fun next =>
        Dict.get? next.record.vars "answer") = some (some (.int 42)) := by
    decide +kernel
  rw [runFrom_bind_ok hnode, hafter] at hanswer
  exact Option.some.inj hanswer

end Engine
end Workflows
