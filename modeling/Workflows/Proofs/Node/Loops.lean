import Mathlib.Data.List.Induction
import Workflows.Proofs.Node.Declared
import Workflows.Proofs.Node.Retry

/-!
# Open loops

A loop node opens a loop on top of the open ones, or fails and changes nothing.  A control node leaves the innermost
loop, counts its next iteration, or does nothing.

* `Node.asksForLoop`    the settings of a loop node make sense under some variables
* `Node.acts?`          whether the guard of a control node holds, where it can be read
* `Turns`               what a loop or control node reports, and the stack behind it
* `WellNested`          no more loops are open than may be, each at its level
* `EnteredInTurn`       the open loops in the order in which the nodes of a run have entered them

Main statement: from an empty stack on, loop and control nodes keep it well nested, and leave a loop that was entered
last (`loops_wellNested`).
-/

namespace Workflows

/-- kinds that open a loop -/
def NodeKind.opensLoop : NodeKind → Bool
  | .loopForEach | .loopWhile | .loopDoWhile | .loopRepeat => true
  | _ => false

/-- kinds that open, leave or count a loop -/
def NodeKind.isOfLoops (k : NodeKind) : Bool := k.opensLoop || k = .loopBreak || k = .loopContinue

/-- one more loop for a node -/
def LoopStack.push (st : LoopStack) (n : Node) : LoopStack :=
  { st with frames := ⟨n.id, n.kind, st.depth, 0⟩ :: st.frames }

namespace Node
open NodeRun
variable {n : Node} {α : Type}

/-! ## Loop nodes -/

/-- a list of items, or null -/
def isCollection : Json → Bool
  | .arr _ | .null => true
  | _ => false

/-- a number, a text that reads as one, or null -/
def isCount : Json → Bool
  | .null => true
  | .str s => (Number.readDouble? (Text.trim s)).isSome
  | v => v.double?.isSome

/-- the settings of a loop node can be read, and make sense under some variables -/
def asksForLoop (n : Node) (vs : Vars) : Bool :=
  match n.kind with
  | .loopForEach => (n.read? ForEachSettings.decode).any fun t => isCollection (resolve vs t.collection)
  | .loopWhile => (n.read? ConditionSettings.decode).any (·.condition.isSome)
  | .loopDoWhile => (n.read? ConditionSettings.decode).any fun _ => true
  | .loopRepeat => (n.read? repeatCountOf).any fun v => isCount (resolve vs v)
  | _ => false

/-- From a session, a computation opens a loop if `asks` and there is room for it, and else it fails without a change. -/
def OpensFrom (n : Node) (s : Session) (asks : Bool) (x : NodeRun Outcome) : Prop :=
  if asks = true ∧ s.loops.depth < s.loops.maxDepth then
    ∃ more, runFrom x s = (.ok (loopOutcome n ⟨n.id, n.kind, s.loops.depth, 0⟩ more), { s with loops := s.loops.push n })
  else ∃ e, runFrom x s = (.error e, s)

namespace OpensFrom
variable {s : Session} {asks : Bool} {x : NodeRun α} {f : α → NodeRun Outcome}

theorem after {a : α} (hx : runFrom x s = (.ok a, s)) (hf : OpensFrom n s asks (f a)) : OpensFrom n s asks (x >>= f) := by
  rw [OpensFrom, runFrom_bind_ok hx]
  exact hf

theorem refused {e : NodeError} (hx : runFrom x s = (.error e, s)) : OpensFrom n s false (x >>= f) := by
  rw [OpensFrom, if_neg (fun h => Bool.false_ne_true h.1)]
  exact ⟨e, runFrom_bind_error hx f⟩

/-- the settings come first -/
theorem settings {decode : Decoder α} {asks : α → Bool} (hf : ∀ a, OpensFrom n s (asks a) (f a)) :
    OpensFrom n s ((n.read? decode).any asks) (n.settings decode >>= f) := by
  cases ha : n.read? decode with
  | some a => exact after (runFrom_settings ha s) (hf a)
  | none =>
    have hrefused : ∃ e, runFrom (n.settings decode) s = (.error e, s) := by
      rw [read?] at ha
      rw [Node.settings, ha]
      exact ⟨_, rfl⟩
    obtain ⟨e, he⟩ := hrefused
    exact refused he

theorem demand {value : Option α} {reason : String} (hf : ∀ a, OpensFrom n s true (f a)) :
    OpensFrom n s value.isSome (NodeRun.demand value reason >>= f) := by
  cases value with
  | some a => exact after rfl (hf a)
  | none => exact refused rfl

theorem given {a : α} (hf : OpensFrom n s asks (f a)) : OpensFrom n s asks (pure a >>= f) :=
  after (s := s) (a := a) rfl hf

theorem count {v : Json} {g : Float → NodeRun Outcome} (hg : ∀ x, OpensFrom n s true (g x)) :
    OpensFrom n s (isCount v) (countOf n v >>= g) := by
  cases v with
  | null =>
    rw [countOf, isCount]
    exact given (hg 0.0)
  | str text =>
    rw [countOf, isCount]
    generalize Number.readDouble? (Text.trim text) = count
    exact demand hg
  | bool _ | int _ | double _ | arr _ | obj _ =>
    rw [countOf, isCount]
    · exact demand hg
    all_goals intros; contradiction

theorem enter (more : LoopFrame → List (String × Json)) : OpensFrom n s true (do
    let frame ← enterLoop n
    return loopOutcome n frame (more frame)) := by
  by_cases hroom : s.loops.depth < s.loops.maxDepth
  · have henter : runFrom (enterLoop n) s =
        (.ok ⟨n.id, n.kind, s.loops.depth, 0⟩, { s with loops := s.loops.push n }) := by
      rw [enterLoop, runFrom_bind_ok (runFrom_get s), LoopStack.enter?, if_pos hroom]
      rfl
    rw [OpensFrom, if_pos ⟨rfl, hroom⟩, runFrom_bind_ok henter]
    exact ⟨_, rfl⟩
  · have hfull : runFrom (enterLoop n) s = (.error (.loopDepthExceeded s.loops.maxDepth), s) := by
      rw [enterLoop, runFrom_bind_ok (runFrom_get s), LoopStack.enter?, if_neg hroom]
      rfl
    rw [OpensFrom, if_neg (fun h => hroom h.2)]
    exact ⟨_, runFrom_bind_error hfull _⟩

end OpensFrom

theorem loopForEach_opens (hk : n.kind = .loopForEach) (s : Session) :
    OpensFrom n s (n.asksForLoop s.vars) n.loopForEach := by
  rw [asksForLoop, hk]
  refine .settings fun t => .after (runFrom_vars s) ?_
  cases resolve s.vars t.collection with
  | arr items => exact .given (.enter _)
  | null => exact .given (.enter _)
  | bool _ | int _ | double _ | str _ | obj _ => exact .refused rfl

theorem loopWhile_opens (hk : n.kind = .loopWhile) (s : Session) :
    OpensFrom n s (n.asksForLoop s.vars) n.loopWhile := by
  rw [asksForLoop, hk]
  exact .settings fun t => .demand fun condition => .after (runFrom_vars s) (.enter _)

theorem loopDoWhile_opens (hk : n.kind = .loopDoWhile) (s : Session) :
    OpensFrom n s (n.asksForLoop s.vars) n.loopDoWhile := by
  rw [asksForLoop, hk]
  exact .settings fun t => .after (runFrom_vars s) (.enter _)

theorem loopRepeat_opens (hk : n.kind = .loopRepeat) (s : Session) :
    OpensFrom n s (n.asksForLoop s.vars) n.loopRepeat := by
  rw [asksForLoop, hk]
  exact .settings fun setting => .after (runFrom_vars s) (.count fun count => .enter _)

theorem execute_opens (c : NodeContext) (hk : n.kind.opensLoop) (s : Session) :
    if n.asksForLoop s.vars = true ∧ s.loops.depth < s.loops.maxDepth then
      ∃ more, (n.execute c).run s =
        (loopOutcome n ⟨n.id, n.kind, s.loops.depth, 0⟩ more, { s with loops := s.loops.push n })
    else ∃ reason, (n.execute c).run s = (.failed reason, s) := by
  have hopens : OpensFrom n s (n.asksForLoop s.vars) (n.handle c) := by
    cases h : n.kind with
    | loopForEach => rw [handle, h]; exact loopForEach_opens h s
    | loopWhile => rw [handle, h]; exact loopWhile_opens h s
    | loopDoWhile => rw [handle, h]; exact loopDoWhile_opens h s
    | loopRepeat => rw [handle, h]; exact loopRepeat_opens h s
    | _ => rw [h] at hk; cases hk
  rw [OpensFrom] at hopens
  split
  · next hasks =>
    rw [if_pos hasks] at hopens
    obtain ⟨more, hrun⟩ := hopens
    exact ⟨more, by rw [execute_run, hrun]; rfl⟩
  · next hasks =>
    rw [if_neg hasks] at hopens
    obtain ⟨e, hrun⟩ := hopens
    exact ⟨e.message, by rw [execute_run, hrun]; rfl⟩

/-! ## Control nodes -/

/-- whether a control node acts under some variables; nothing where its guard cannot be read -/
def acts? (n : Node) (vs : Vars) : Option Bool :=
  (n.read? guardOf).map fun guard => guard.getD "" = "" || holds vs (guard.getD "")

/-- the report of a node that has left a loop, if one was open -/
def leftLoop (exited : Option String) : Outcome :=
  { Outcome.ofStatus .breakLoop with
    output := some (.ofMembers [("condition_met", .bool true), ("loop_control", .str "break"),
      ("exited_loop", .ofOptionText exited)]) }

variable {s : Session}

theorem loopControl_refused (h : n.acts? s.vars = none) : ∃ e, runFrom n.loopControl s = (.error e, s) := by
  have hrefused : ∃ e, runFrom (n.settings guardOf) s = (.error e, s) := by
    rw [acts?, Option.map_eq_none_iff, read?] at h
    rw [settings, h]
    exact ⟨_, rfl⟩
  obtain ⟨e, he⟩ := hrefused
  exact ⟨e, runFrom_bind_error he _⟩

theorem runFrom_loopControl {acts : Bool} (h : n.acts? s.vars = some acts) : runFrom n.loopControl s =
    if acts then
      if n.kind = .loopBreak then
        (.ok (leftLoop (s.loops.current?.map (·.loopId))), { s with loops := s.loops.exit })
      else
        (.ok { Outcome.ofStatus .continueLoop with
          output := some (.ofMembers [("condition_met", .bool true), ("loop_control", .str "continue"),
            ("exited_loop", .null)]) }, { s with loops := s.loops.tick })
    else (.ok (.done (.ofMembers [("condition_met", .bool false)])), s) := by
  obtain ⟨guard, hguard, rfl⟩ := Option.map_eq_some_iff.mp h
  unfold loopControl
  rw [runFrom_bind_ok (runFrom_settings hguard s), runFrom_bind_ok (runFrom_vars s)]
  simp only
  split
  · split
    · rfl
    · rfl
  · rfl

theorem handle_loopControl (c : NodeContext) (hk : n.kind = .loopBreak ∨ n.kind = .loopContinue) :
    n.handle c = n.loopControl := by
  rcases hk with hk | hk
  · rw [handle, hk]
  · rw [handle, hk]

theorem execute_control_refused (c : NodeContext) (hk : n.kind = .loopBreak ∨ n.kind = .loopContinue)
    (h : n.acts? s.vars = none) : ∃ reason, (n.execute c).run s = (.failed reason, s) := by
  obtain ⟨e, hrun⟩ := loopControl_refused h
  exact ⟨e.message, by rw [execute_run, handle_loopControl c hk, hrun]; rfl⟩

/-- a `loop_break` that acts leaves the innermost loop -/
theorem execute_break (c : NodeContext) (hk : n.kind = .loopBreak) (h : n.acts? s.vars = some true) :
    (n.execute c).run s = (leftLoop (s.loops.current?.map (·.loopId)), { s with loops := s.loops.exit }) := by
  rw [execute_run, handle_loopControl c (.inl hk), runFrom_loopControl h, if_pos rfl, if_pos hk]
  rfl

/-! ## The stack -/

/-- What a loop or control node reports, and the stack behind it. -/
inductive Turns (n : Node) (st : LoopStack) : NodeStatus → LoopStack → Prop
  | failed : Turns n st .failed st
  | opened (hopens : n.kind.opensLoop) (hroom : st.depth < st.maxDepth) : Turns n st .completed (st.push n)
  /-- the guard of a control node does not hold -/
  | idle : Turns n st .completed st
  | left : Turns n st .breakLoop st.exit
  | counted : Turns n st .continueLoop st.tick

theorem execute_control_turns (c : NodeContext) (hk : n.kind = .loopBreak ∨ n.kind = .loopContinue) (s : Session) :
    Turns n s.loops ((n.execute c).run s).1.status ((n.execute c).run s).2.loops := by
  cases hacts : n.acts? s.vars with
  | none =>
    obtain ⟨reason, hrun⟩ := execute_control_refused c hk hacts
    rw [hrun]
    exact .failed
  | some acts =>
    rw [execute_run, handle_loopControl c hk, runFrom_loopControl hacts]
    split
    · split
      · exact .left
      · exact .counted
    · exact .idle

theorem execute_turns (c : NodeContext) (hk : n.kind.isOfLoops) (s : Session) :
    Turns n s.loops ((n.execute c).run s).1.status ((n.execute c).run s).2.loops := by
  by_cases hopens : n.kind.opensLoop
  · have hrun := execute_opens c hopens s
    split at hrun
    · next hasks =>
      obtain ⟨more, hrun⟩ := hrun
      rw [hrun]
      exact .opened hopens hasks.2
    · obtain ⟨reason, hrun⟩ := hrun
      rw [hrun]
      exact .failed
  · simp only [NodeKind.isOfLoops, hopens, Bool.false_or, Bool.or_eq_true, decide_eq_true_eq] at hk
    exact execute_control_turns c hk s

/-- No more loops are open than may be, and the one at position `p` from the outside has the nesting level `p`. -/
structure WellNested (st : LoopStack) : Prop where
  bounded : st.depth ≤ st.maxDepth
  levels : ∀ p (f : LoopFrame), st.frames.reverse[p]? = some f → f.nestingLevel = p

namespace WellNested
variable {st st' : LoopStack} {status : NodeStatus}

theorem push (h : WellNested st) (hroom : st.depth < st.maxDepth) : WellNested (st.push n) := by
  refine ⟨hroom, fun p f hf => ?_⟩
  rw [LoopStack.push, List.reverse_cons, List.getElem?_append] at hf
  split at hf
  · exact h.levels p f hf
  · next hp =>
    rw [List.getElem?_singleton] at hf
    split at hf
    · next hlast =>
      rw [List.length_reverse] at hp hlast
      have hdepth : st.depth = p := by rw [LoopStack.depth]; omega
      exact (congrArg LoopFrame.nestingLevel (Option.some.inj hf)).symm.trans hdepth
    · cases hf

theorem exit (h : WellNested st) : WellNested st.exit := by
  refine ⟨Nat.le_trans ?_ h.bounded, fun p f hf => h.levels p f ?_⟩
  · rw [LoopStack.depth, LoopStack.exit, List.length_tail]
    exact Nat.sub_le _ _
  · rw [LoopStack.exit, ← List.dropLast_reverse, List.getElem?_dropLast] at hf
    split at hf
    · exact hf
    · cases hf

theorem tick (h : WellNested st) : WellNested st.tick := by
  rw [LoopStack.tick]
  split
  · exact h
  · next f fs hframes =>
    refine ⟨?_, fun p g hg => ?_⟩
    · have hbounded := h.bounded
      rw [LoopStack.depth, hframes] at hbounded
      exact hbounded
    · have hlevels := h.levels p
      rw [hframes] at hlevels
      simp only [List.reverse_cons, List.getElem?_append] at hg hlevels
      split at hg
      · next hp =>
        rw [if_pos hp] at hlevels
        exact hlevels g hg
      · next hp =>
        rw [if_neg hp] at hlevels
        rw [List.getElem?_singleton] at hg hlevels
        split at hg
        · next hlast =>
          rw [if_pos hlast] at hlevels
          obtain rfl := Option.some.inj hg
          exact hlevels f rfl
        · cases hg

theorem turns (ht : Turns n st status st') (h : WellNested st) : WellNested st' := by
  cases ht with
  | failed | idle => exact h
  | opened _ hroom => exact h.push hroom
  | left => exact h.exit
  | counted => exact h.tick

end WellNested

theorem Turns.maxDepth_eq {st st' : LoopStack} {status : NodeStatus} (ht : Turns n st status st') :
    st'.maxDepth = st.maxDepth := by
  cases ht with
  | failed | idle | opened | left => rfl
  | counted =>
    rw [LoopStack.tick]
    split <;> rfl

/-! ## Runs -/

/-- the session after a list of nodes, one after the other -/
def afterAll (c : NodeContext) (s : Session) (nodes : List Node) : Session :=
  nodes.foldl (fun s n => ((n.execute c).run s).2) s

/-- Node number `i` of a run has opened a loop. -/
def EnteredAt (c : NodeContext) (s : Session) (nodes : List Node) (f : LoopFrame) (i : Nat) : Prop :=
  ∃ n, nodes[i]? = some n ∧ n.kind.opensLoop ∧ f.loopId = n.id ∧ f.kind = n.kind ∧
    ((n.execute c).run (afterAll c s (nodes.take i))).1.status = .completed

/-- Nodes of a run before number `k` have opened the loops of a stack, an inner one after the outer ones. -/
def EnteredInTurn (c : NodeContext) (s : Session) (nodes : List Node) : Nat → List LoopFrame → Prop
  | _, [] => True
  | k, f :: fs => ∃ i < k, EnteredAt c s nodes f i ∧ EnteredInTurn c s nodes i fs

theorem afterAll_concat (c : NodeContext) (s : Session) (nodes : List Node) (n : Node) :
    afterAll c s (nodes ++ [n]) = ((n.execute c).run (afterAll c s nodes)).2 := by
  rw [afterAll, List.foldl_append]
  rfl

section
variable {c : NodeContext} {s : Session} {nodes : List Node} {f : LoopFrame} {fs : List LoopFrame}

theorem EnteredAt.concat {i : Nat} (h : EnteredAt c s nodes f i) (n : Node) : EnteredAt c s (nodes ++ [n]) f i := by
  obtain ⟨m, hm, hentered⟩ := h
  have hi := (List.getElem?_eq_some_iff.mp hm).1
  have htake : (nodes ++ [n]).take i = nodes.take i := List.take_append_of_le_length hi.le
  rw [← htake] at hentered
  exact ⟨m, (List.getElem?_append_left hi).trans hm, hentered⟩

namespace EnteredInTurn
variable {k : Nat}

theorem concat (h : EnteredInTurn c s nodes k fs) (n : Node) : EnteredInTurn c s (nodes ++ [n]) k fs := by
  induction fs generalizing k with
  | nil => trivial
  | cons f fs ih =>
    obtain ⟨i, hi, hat, hrest⟩ := h
    exact ⟨i, hi, hat.concat n, ih hrest⟩

theorem later {l : Nat} (h : EnteredInTurn c s nodes k fs) (hkl : k ≤ l) : EnteredInTurn c s nodes l fs := by
  cases fs with
  | nil => trivial
  | cons f fs =>
    obtain ⟨i, hi, hrest⟩ := h
    exact ⟨i, hi.trans_le hkl, hrest⟩

theorem leave (h : EnteredInTurn c s nodes k fs) : EnteredInTurn c s nodes k fs.tail := by
  cases fs with
  | nil => trivial
  | cons f fs =>
    obtain ⟨i, hi, -, hrest⟩ := h
    exact hrest.later hi.le

theorem enter (h : EnteredInTurn c s nodes nodes.length fs) (hopens : n.kind.opensLoop) (hid : f.loopId = n.id)
    (hkind : f.kind = n.kind) (hdone : ((n.execute c).run (afterAll c s nodes)).1.status = .completed) :
    EnteredInTurn c s (nodes ++ [n]) (nodes.length + 1) (f :: fs) := by
  refine ⟨nodes.length, Nat.lt_succ_self _, ⟨n, ?_, hopens, hid, hkind, ?_⟩, h.concat n⟩
  · rw [List.getElem?_append_right (Nat.le_refl _), Nat.sub_self]
    rfl
  · rw [List.take_left]
    exact hdone

theorem tick {st : LoopStack} (h : EnteredInTurn c s nodes k st.frames) :
    EnteredInTurn c s nodes k st.tick.frames := by
  rw [LoopStack.tick]
  split
  · exact h
  · next hframes =>
    rw [hframes] at h
    exact h

theorem turns {st : LoopStack} (h : EnteredInTurn c s nodes nodes.length (afterAll c s nodes).loops.frames)
    (ht : Turns n (afterAll c s nodes).loops ((n.execute c).run (afterAll c s nodes)).1.status st) :
    EnteredInTurn c s (nodes ++ [n]) (nodes.length + 1) st.frames := by
  generalize hstatus : ((n.execute c).run (afterAll c s nodes)).1.status = status at ht
  cases ht with
  | failed | idle => exact (h.concat n).later (Nat.le_succ _)
  | opened hopens _ => exact h.enter hopens rfl rfl hstatus
  | left => exact (h.concat n).leave.later (Nat.le_succ _)
  | counted => exact (h.concat n).tick.later (Nat.le_succ _)

end EnteredInTurn

/-- what a run from an empty stack keeps -/
theorem afterAll_wellNested (hloops : ∀ n ∈ nodes, n.kind.isOfLoops) (hempty : s.loops.frames = []) :
    (afterAll c s nodes).loops.maxDepth = s.loops.maxDepth ∧ WellNested (afterAll c s nodes).loops ∧
      EnteredInTurn c s nodes nodes.length (afterAll c s nodes).loops.frames := by
  induction nodes using List.reverseRecOn with
  | nil =>
    rw [afterAll, List.foldl_nil, hempty]
    refine ⟨rfl, ⟨?_, fun p f hf => ?_⟩, trivial⟩
    · rw [LoopStack.depth, hempty]
      exact Nat.zero_le _
    · rw [hempty] at hf
      cases hf
  | append_singleton nodes n ih =>
    obtain ⟨hmax, hnested, hentered⟩ := ih fun m hm => hloops m (List.mem_append_left _ hm)
    have hturns := execute_turns c (hloops n (List.mem_append_right _ (List.mem_singleton_self n))) (afterAll c s nodes)
    rw [afterAll_concat, List.length_append]
    exact ⟨hturns.maxDepth_eq.trans hmax, hnested.turns hturns, hentered.turns hturns⟩

end

/-- Loop and control nodes, from an empty stack on: the stack stays well nested, and its loops are those that were
entered last and not left since.  Then a loop node opens a loop, or fails where its settings make no sense or the stack
is full.  What fails changes nothing, and a `loop_break` that acts leaves the innermost loop only. -/
theorem loops_wellNested (c : NodeContext) {s v : Session} {nodes : List Node}
    (hloops : ∀ n ∈ nodes, n.kind.isOfLoops) (hempty : s.loops.frames = []) (hv : afterAll c s nodes = v) :
    v.loops.maxDepth = s.loops.maxDepth ∧ WellNested v.loops ∧
    EnteredInTurn c s nodes nodes.length v.loops.frames ∧
    (∀ n : Node, n.kind.opensLoop →
      if n.asksForLoop v.vars = true ∧ v.loops.depth < s.loops.maxDepth then
        ∃ more, (n.execute c).run v =
          (loopOutcome n ⟨n.id, n.kind, v.loops.depth, 0⟩ more, { v with loops := v.loops.push n })
      else ∃ reason, (n.execute c).run v = (.failed reason, v)) ∧
    (∀ n : Node, n.kind = .loopBreak ∨ n.kind = .loopContinue → n.acts? v.vars = none →
      ∃ reason, (n.execute c).run v = (.failed reason, v)) ∧
    ∀ n : Node, n.kind = .loopBreak → n.acts? v.vars = some true →
      (n.execute c).run v = (leftLoop (v.loops.frames.head?.map (·.loopId)),
        { v with loops := { v.loops with frames := v.loops.frames.tail } }) := by
  subst hv
  obtain ⟨hmax, hnested, hentered⟩ := afterAll_wellNested (c := c) hloops hempty
  refine ⟨hmax, hnested, hentered, fun n hopens => ?_, fun n hk hacts => ?_, fun n hk hacts => ?_⟩
  · rw [← hmax]
    exact execute_opens c hopens _
  · exact execute_control_refused c hk hacts
  · exact execute_break c hk hacts

namespace Sample

/-- no more than two loops within each other -/
def twoDeep : Session where
  vars := []
  loops := { maxDepth := 2 }
  world := {}

def leaveLoop : Node := ⟨"leave", .loopBreak, none, .obj []⟩

/-- Two loops are opened and a third one is refused; the inner one is left, and another one takes its place. -/
def rounds : List Node :=
  [⟨"orders", .loopForEach, none, .obj [("collection", .arr [.int 4, .int 7])]⟩,
    ⟨"lines", .loopDoWhile, none, .obj []⟩,
    ⟨"copies", .loopRepeat, none, .obj [("count", .int 3)]⟩,
    leaveLoop,
    ⟨"next", .loopContinue, none, .obj []⟩,
    ⟨"parcels", .loopDoWhile, none, .obj []⟩]

def tooDeep : Node := ⟨"labels", .loopForEach, none, .obj []⟩

end Sample

theorem loops_wellNested_rounds : (∀ n ∈ Sample.rounds, n.kind.isOfLoops) ∧ Sample.twoDeep.loops.frames = [] ∧
    ∃ v, afterAll Sample.recovering Sample.twoDeep Sample.rounds = v ∧
      v.loops.frames = [⟨"parcels", .loopDoWhile, 1, 0⟩, ⟨"orders", .loopForEach, 0, 1⟩] ∧ WellNested v.loops ∧
      EnteredInTurn Sample.recovering Sample.twoDeep Sample.rounds 6 v.loops.frames ∧
      (∃ reason, (Sample.tooDeep.execute Sample.recovering).run v = (.failed reason, v)) ∧
      (Sample.leaveLoop.execute Sample.recovering).run v = (leftLoop (some "parcels"),
        { v with loops := ⟨2, [⟨"orders", .loopForEach, 0, 1⟩]⟩ }) := by
  have hloops : ∀ n ∈ Sample.rounds, n.kind.isOfLoops := by decide
  have hopen : (afterAll Sample.recovering Sample.twoDeep Sample.rounds).loops =
      ⟨2, [⟨"parcels", .loopDoWhile, 1, 0⟩, ⟨"orders", .loopForEach, 0, 1⟩]⟩ := by decide +kernel
  obtain ⟨-, hnested, hentered, hopens, -, hleaves⟩ :=
    loops_wellNested (s := Sample.twoDeep) Sample.recovering hloops rfl rfl
  have hrefused := hopens Sample.tooDeep rfl
  have hleft := hleaves Sample.leaveLoop rfl rfl
  rw [hopen] at hrefused hleft
  refine ⟨hloops, rfl, _, rfl, congrArg LoopStack.frames hopen, hnested, hentered, ?_, hleft⟩
  rw [if_neg (fun h => absurd h.2 (by decide))] at hrefused
  exact hrefused

end Node
end Workflows
