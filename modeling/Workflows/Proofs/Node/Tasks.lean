import Mathlib.Algebra.BigOperators.Group.Finset.Piecewise
import Mathlib.Data.Int.CardIntervalMod
import Workflows.Proofs.Node.Declared
import Workflows.Proofs.Node.Retry

/-!
# Tasks for the members of a role

A task node chooses an assignee and then leaves its task.  Who it chooses depends on what the nodes before it have left
in the store: on the number of all tasks, or on the workloads of the members.

* `Leaves`     a task node that leaves a task: its outcome, and the session behind it
* `TaskRun`    tasks for a role under one strategy, with other things and failing nodes between them
* `rotation`   the positions of a list in turn

Main statements: tasks given in turn rotate through the members (`roundRobin_rotates`), and tasks given to the member
with the least work keep the workloads level (`loadBalanced_levels`).
-/

namespace Workflows

namespace Store
variable {s : Store} {user other : String} {members : List String}

/-! ## Workloads -/

theorem workload_addWorkload (s : Store) (user other : String) :
    (s.addWorkload user).workload other = s.workload other + if other = user then 1 else 0 := by
  rw [workload, addWorkload]
  split
  · next heq => rw [heq, Dict.get?_insert_self, Option.getD_some]
  · next hne => rw [Dict.get?_insert_of_ne _ _ hne, Nat.add_zero, workload]

/-- how far two workloads are apart -/
def imbalance (s : Store) (a b : String) : Nat := ((s.workload a : Int) - s.workload b).natAbs

/-- the work of some users, each counted once -/
def totalWork (s : Store) (users : List String) : Nat := ∑ user ∈ users.toFinset, s.workload user

theorem imbalance_addWorkload {a b : String} (hleast : ∀ m ∈ members, s.workload user ≤ s.workload m) (ha : a ∈ members)
    (hb : b ∈ members) : (s.addWorkload user).imbalance a b ≤ max 1 (s.imbalance a b) := by
  have hua := hleast a ha
  have hub := hleast b hb
  rw [imbalance, imbalance, workload_addWorkload, workload_addWorkload]
  by_cases hau : a = user <;> by_cases hbu : b = user
  · rw [if_pos hau, if_pos hbu]
    omega
  · rw [if_pos hau, if_neg hbu, hau]
    omega
  · rw [if_neg hau, if_pos hbu, hbu]
    omega
  · rw [if_neg hau, if_neg hbu]
    omega

theorem totalWork_addWorkload (h : user ∈ members) :
    (s.addWorkload user).totalWork members = s.totalWork members + 1 := by
  simp only [totalWork, workload_addWorkload, Finset.sum_add_distrib]
  rw [Finset.sum_ite_eq', if_pos (List.mem_toFinset.mpr h)]

end Store

/-- the assignee that the outcome of a task node reports -/
def Outcome.assignee? (o : Outcome) : Option String := (o.output.bind (·.member? "assignee")).bind Json.str?

namespace Node
open NodeRun
variable {c : NodeContext} {n : Node} {t : TaskSettings} {s : Session} {members : List String}

theorem leastLoaded?_spec (s : Store) (h : members ≠ []) : ∃ best ∈ members,
    leastLoaded? s members = some best ∧ ∀ m ∈ members, s.workload best ≤ s.workload m := by
  induction members with
  | nil => exact absurd rfl h
  | cons m ms ih =>
    cases ms with
    | nil => exact ⟨m, List.mem_cons_self, rfl, fun k hk => by rw [List.mem_singleton.mp hk]⟩
    | cons k ks =>
      obtain ⟨best, hbest, hfound, hleast⟩ := ih (List.cons_ne_nil k ks)
      rw [leastLoaded?, hfound]
      simp only
      split
      · next hlt => exact ⟨best, List.mem_cons_of_mem m hbest, rfl, List.forall_mem_cons.mpr ⟨hlt.le, hleast⟩⟩
      · next hge =>
        refine ⟨m, List.mem_cons_self, rfl, List.forall_mem_cons.mpr ⟨le_rfl, fun j hj => ?_⟩⟩
        exact (not_lt.mp hge).trans (hleast j hj)

/-! ## One task -/

/-- the store after the choice of an assignee -/
def chosenStore (s : Store) (t : TaskSettings) : Store :=
  match chosenAssignee s t with
  | some user => if countsAsWork s t then s.addWorkload user else s
  | none => s

/-- A task node leaves a task: its outcome, and the session behind it. -/
structure Leaves (t : TaskSettings) (s : Session) (o : Outcome) (v : Session) : Prop where
  status : o.status = .waiting
  assignee : o.assignee? = chosenAssignee s.world.store t
  store : ∃ task : Task, v.world.store = (chosenStore s.world.store t).insertTask task ∧
    task.assignee = chosenAssignee s.world.store t

theorem runFrom_assignTask (t : TaskSettings) (s : Session) : runFrom (assignTask t) s =
    (.ok (chosenAssignee s.world.store t),
      { s with world := { s.world with store := chosenStore s.world.store t } }) := by
  have hchosen : runFrom (fromStore fun store => chosenAssignee store t : NodeRun (Option String)) s =
      (.ok (chosenAssignee s.world.store t), s) := rfl
  have hcounts : runFrom (fromStore fun store => countsAsWork store t : NodeRun Bool) s =
      (.ok (countsAsWork s.world.store t), s) := rfl
  unfold assignTask
  rw [runFrom_bind_ok hchosen, runFrom_bind_ok hcounts, chosenStore]
  cases chosenAssignee s.world.store t with
  | none => rfl
  | some user =>
    cases countsAsWork s.world.store t
    · rfl
    · rfl

theorem assignee?_of_output {o : Outcome} {id : String} {assignee : Option String} {due : Json}
    (h : o.output = some (.ofMembers [("task_id", .str id), ("assignee", .ofOptionText assignee), ("due_date", due)])) :
    o.assignee? = assignee := by
  have hmember : (Json.ofMembers
      [("task_id", .str id), ("assignee", .ofOptionText assignee), ("due_date", due)]).member? "assignee" =
        some (.ofOptionText assignee) := by
    have hne : "assignee" ≠ "due_date" := by decide
    rw [Json.ofMembers, Json.member?, Dict.ofList, Dict.overlay, List.foldl_cons, List.foldl_cons, List.foldl_cons,
      List.foldl_nil, Dict.get?_insert_of_ne _ _ hne, Dict.get?_insert_self]
  rw [Outcome.assignee?, h, Option.bind_some, hmember, Option.bind_some]
  cases assignee <;> rfl

/-- A deadline is computed, or refused, without a change. -/
theorem runFrom_deadline (c : NodeContext) (n : Node) (seconds : Float) (s : Session) :
    ∃ r, runFrom (n.deadline c seconds) s = (r, s) := by
  have hnow : runFrom c.now s = (.ok (c.env.epoch.addNanos s.world.ticks), s) := rfl
  unfold deadline
  rw [runFrom_bind_ok hnow]
  cases laterBy? (c.env.epoch.addNanos s.world.ticks) seconds <;> exact ⟨_, rfl⟩

/-- **A task node is refused without a change, or it leaves a task.** -/
theorem execute_task (c : NodeContext) (hk : n.kind = .task) (s : Session) :
    (∃ reason, (n.execute c).run s = (.failed reason, s)) ∨
      ∃ t o v, n.read? TaskSettings.decode = some t ∧ (n.execute c).run s = (o, v) ∧ Leaves t s o v := by
  have hh : n.handle c = n.task c := by rw [handle, hk]
  rw [execute_run, hh]
  cases ht : n.read? TaskSettings.decode with
  | none =>
    have hrefused : ∃ e, runFrom (n.settings TaskSettings.decode) s = (.error e, s) := by
      rw [read?] at ht
      rw [settings, ht]
      exact ⟨_, rfl⟩
    obtain ⟨e, he⟩ := hrefused
    unfold task
    rw [runFrom_bind_error he]
    exact .inl ⟨e.message, rfl⟩
  | some t =>
    unfold task
    rw [runFrom_bind_ok (runFrom_settings ht s)]
    extract_lets leave
    have hleave : ∀ dueDate, ∃ o v, runFrom (leave dueDate) s = (.ok o, v) ∧ Leaves t s o v := by
      intro dueDate
      refine ⟨_, _, (runFrom_bind_ok (runFrom_assignTask t s) _).trans rfl, ?_⟩
      exact ⟨rfl, assignee?_of_output rfl, _, rfl, rfl⟩
    -- the deadline comes first, so a task without one in range is refused before its work is counted
    split
    · next hours _ =>
      obtain ⟨r, hdeadline⟩ := runFrom_deadline c n (hours * 3600.0) s
      cases r with
      | error e =>
        rw [runFrom_bind_error hdeadline]
        exact .inl ⟨e.message, rfl⟩
      | ok time =>
        rw [runFrom_bind_ok hdeadline]
        obtain ⟨o, v, hrun, hleaves⟩ := hleave (some time)
        exact .inr ⟨t, o, v, rfl, congrArg (fun r => (outcomeOf r.1, r.2)) hrun, hleaves⟩
    · obtain ⟨o, v, hrun, hleaves⟩ := hleave none
      exact .inr ⟨t, o, v, rfl, congrArg (fun r => (outcomeOf r.1, r.2)) hrun, hleaves⟩

theorem execute_failed (hk : n.kind = .task) (h : ((n.execute c).run s).1.status = .failed) :
    ((n.execute c).run s).2 = s := by
  rcases execute_task c hk s with ⟨reason, hrun⟩ | ⟨t, o, v, -, hrun, hleaves⟩
  · rw [hrun]
  · rw [hrun, hleaves.status] at h
    cases h

theorem execute_leaves (hk : n.kind = .task) (ht : n.read? TaskSettings.decode = some t)
    (h : ((n.execute c).run s).1.status ≠ .failed) :
    Leaves t s ((n.execute c).run s).1 ((n.execute c).run s).2 := by
  rcases execute_task c hk s with ⟨reason, hrun⟩ | ⟨t', o, v, ht', hrun, hleaves⟩
  · rw [hrun] at h
    exact absurd rfl h
  · rw [ht] at ht'
    cases ht'
    rw [hrun]
    exact hleaves

/-! ## Tasks in a row -/

/-- One task of several: the session in front of its node, and the outcome. -/
structure Turn where
  before : Session
  outcome : Outcome

/-- Tasks for a role under one strategy, from a session on.  Between them nodes for tasks fail, and other things happen
as far as `meanwhile` allows. -/
inductive TaskRun (strategy : Assignment) (role : String) (meanwhile : Session → Session → Prop) (s : Session) :
    List Turn → Session → Prop
  | start : TaskRun strategy role meanwhile s [] s
  | task {turns : List Turn} {u : Session} {c : NodeContext} {n : Node} {t : TaskSettings}
    (h : TaskRun strategy role meanwhile s turns u) (hk : n.kind = .task)
    (ht : n.read? TaskSettings.decode = some t) (hstrategy : t.strategy = strategy) (hrole : t.role = some role)
    (hdone : ((n.execute c).run u).1.status ≠ .failed) :
    TaskRun strategy role meanwhile s (turns ++ [⟨u, ((n.execute c).run u).1⟩]) ((n.execute c).run u).2
  | failed {turns : List Turn} {u : Session} {c : NodeContext} {n : Node}
    (h : TaskRun strategy role meanwhile s turns u) (hk : n.kind = .task)
    (hfailed : ((n.execute c).run u).1.status = .failed) :
    TaskRun strategy role meanwhile s turns ((n.execute c).run u).2
  | other {turns : List Turn} {u v : Session} (h : TaskRun strategy role meanwhile s turns u) (hv : meanwhile u v) :
    TaskRun strategy role meanwhile s turns v

variable {role : String} {turns : List Turn} {u v : Session}

theorem membersOf_role (hrole : t.role = some role) (store : Store) :
    (t.role.map store.roleMembers).getD [] = store.roleMembers role := by
  rw [hrole]
  rfl

/-! ### in turn -/

/-- the positions of a list of `m` whose turn it is, one after the other behind `before` others -/
def rotation (m before k : Nat) : List Nat := (List.range k).map fun i => (before + i) % m

theorem rotation_succ (m before k : Nat) : rotation m before (k + 1) = rotation m before k ++ [(before + k) % m] := by
  rw [rotation, List.range_succ, List.map_append]
  rfl

theorem rotation_count_eq (m before k p : Nat) :
    (rotation m before k).count p = Nat.count (fun i => (before + i) % m = p) k := by
  induction k with
  | zero => rfl
  | succ k ih =>
    rw [rotation_succ, List.count_append, ih, Nat.count_succ, List.count_singleton]
    simp only [beq_iff_eq]

/-- **No position has more than one turn more than another.** -/
theorem rotation_count {m p : Nat} (hp : p < m) (before k : Nat) :
    (rotation m before k).count p = k / m ∨ (rotation m before k).count p = k / m + 1 := by
  have hm : 0 < m := Nat.zero_lt_of_lt hp
  -- the turns of `p` are those in one residue class, which the offset only shifts
  have hfirst : before + (p + (m - before % m)) ≡ p [MOD m] := by
    have hsum : before + (p + (m - before % m)) = p + m * (before / m + 1) := by
      have hdiv := Nat.div_add_mod before m
      have hmod := Nat.mod_lt before hm
      rw [Nat.mul_add, Nat.mul_one]
      omega
    rw [hsum]
    exact Nat.add_mul_mod_self_left p m _
  have hiff : ∀ i, (before + i) % m = p ↔ i ≡ p + (m - before % m) [MOD m] := by
    intro i
    refine Iff.trans ?_ (Nat.ModEq.add_iff_left (Nat.ModEq.refl before))
    have hmod : (before + i) % m = p ↔ before + i ≡ p [MOD m] := by rw [Nat.ModEq, Nat.mod_eq_of_lt hp]
    rw [hmod]
    exact ⟨fun h => h.trans hfirst.symm, fun h => h.trans hfirst⟩
  simp only [rotation_count_eq, hiff, Nat.count_modEq_card _ hm]
  split
  · exact .inr rfl
  · exact .inl rfl

/-- What leaves the rotation of a role as it is: its members stay, and no task is left. -/
structure KeepsTurn (role : String) (u v : Session) : Prop where
  members : v.world.store.roleMembers role = u.world.store.roleMembers role
  tasks : v.world.store.tasks.length = u.world.store.tasks.length

theorem chosen_in_turn (hstrategy : t.strategy = .roundRobin) (hrole : t.role = some role) {store : Store}
    (hm : store.roleMembers role ≠ []) :
    chosenAssignee store t = (store.roleMembers role)[store.tasks.length % (store.roleMembers role).length]? ∧
      chosenStore store t = store := by
  have hcounts : countsAsWork store t = false := by
    rw [countsAsWork, hstrategy]
    rfl
  constructor
  · rw [chosenAssignee, membersOf_role hrole, hstrategy]
    simp only
    rw [if_neg (by rwa [List.isEmpty_iff]), memberInTurn?]
  · rw [chosenStore, hcounts]
    cases chosenAssignee store t <;> rfl

/-- Tasks that are given in turn, up to some session. -/
structure Rotates (role : String) (s : Session) (turns : List Turn) (v : Session) : Prop where
  members : v.world.store.roleMembers role = s.world.store.roleMembers role
  tasks : v.world.store.tasks.length = s.world.store.tasks.length + turns.length
  assignees : turns.map (·.outcome.assignee?) =
    (rotation (s.world.store.roleMembers role).length s.world.store.tasks.length turns.length).map
      fun p => (s.world.store.roleMembers role)[p]?

theorem Rotates.task (h : Rotates role s turns u) (hm : s.world.store.roleMembers role ≠ [])
    (hstrategy : t.strategy = .roundRobin) (hrole : t.role = some role) {o : Outcome} (hleaves : Leaves t u o v) :
    Rotates role s (turns ++ [⟨u, o⟩]) v := by
  obtain ⟨task, hstore, -⟩ := hleaves.store
  have hne : u.world.store.roleMembers role ≠ [] := by rwa [h.members]
  obtain ⟨hchosen, hsame⟩ := chosen_in_turn hstrategy hrole hne
  rw [hsame] at hstore
  rw [h.members, h.tasks] at hchosen
  refine ⟨?_, ?_, ?_⟩
  · rw [hstore]
    exact h.members
  · rw [hstore, List.length_append, ← Nat.add_assoc, ← h.tasks]
    exact List.length_append
  · rw [List.map_append, h.assignees, List.length_append, List.length_singleton, rotation_succ, List.map_append]
    exact congrArg _ (congrArg (fun a => [a]) (hleaves.assignee.trans hchosen))

theorem Rotates.other (h : Rotates role s turns u) (hv : KeepsTurn role u v) : Rotates role s turns v :=
  ⟨hv.members.trans h.members, hv.tasks.trans h.tasks, h.assignees⟩

theorem TaskRun.rotates (h : TaskRun .roundRobin role (KeepsTurn role) s turns v)
    (hm : s.world.store.roleMembers role ≠ []) : Rotates role s turns v := by
  induction h with
  | start => exact ⟨rfl, rfl, rfl⟩
  | task _ hk ht hstrategy hrole hdone ih => exact ih.task hm hstrategy hrole (execute_leaves hk ht hdone)
  | failed _ hk hfailed ih => exact (execute_failed hk hfailed).symm ▸ ih
  | other _ hv ih => exact ih.other hv

/-- **Tasks that are given in turn rotate through the members of a role**, so that all positions have the same number of
turns up to one; a task node that fails changes nothing. -/
theorem roundRobin_rotates {before : Nat} (h : TaskRun .roundRobin role (KeepsTurn role) s turns v)
    (hmembers : s.world.store.roleMembers role = members) (hm : members ≠ [])
    (hbefore : s.world.store.tasks.length = before) :
    turns.map (·.outcome.assignee?) = (rotation members.length before turns.length).map (fun p => members[p]?) ∧
      (∀ p < members.length,
        (rotation members.length before turns.length).count p = turns.length / members.length ∨
          (rotation members.length before turns.length).count p = turns.length / members.length + 1) ∧
      ∀ (c : NodeContext) (n : Node), n.kind = .task → ((n.execute c).run v).1.status = .failed →
        ((n.execute c).run v).2 = v := by
  subst hmembers hbefore
  exact ⟨(h.rotates hm).assignees, fun _ hp => rotation_count hp _ _, fun _ _ hk hfailed => execute_failed hk hfailed⟩

namespace Sample

/-- a task for a role, due in some hours -/
def asking (strategy role : String) (hours : Json) : Node :=
  ⟨"ask", .task, none, .obj [("strategy", .str strategy), ("role", .str role), ("assignee", .str "zoe"),
    ("sla_hours", hours)]⟩

/-- more hours than a date can have -/
def never : Json := .int 9000000000000000000

def askedBefore : Task where
  id := "t"
  instanceId := "i"
  nodeId := "ask"
  title := "ask"
  description := none
  assignee := some "zoe"
  role := none
  strategy := .direct
  status := "pending"
  dueDate := none
  createdAt := ⟨0, 0⟩

/-- a role of three, one with a name twice, and one task so far -/
def staffed : Session :=
  { session with world := { session.world with store := { session.world.store with
      roles := [("support", ["ann", "bob", "cat"]), ("ops", ["ann", "bob", "ann"])]
      workloads := [("ann", 2)]
      tasks := [askedBefore] } } }

end Sample

theorem roundRobin_rotates_support : ∃ turns v,
    TaskRun .roundRobin "support" (KeepsTurn "support") Sample.staffed turns v ∧
      turns.map (·.outcome.assignee?) = [some "bob", some "cat", some "ann", some "bob"] := by
  have hnext {turns : List Turn} {u : Session}
      (h : TaskRun .roundRobin "support" (KeepsTurn "support") Sample.staffed turns u) :=
    h.task (c := Sample.recovering) (n := Sample.asking "round_robin" "support" (.int 1)) rfl rfl rfl rfl
  have first := hnext .start (by decide +kernel)
  have second := hnext first (by decide +kernel)
  have refused := second.failed (c := Sample.recovering) (n := Sample.asking "round_robin" "support" Sample.never) rfl
    (by decide +kernel)
  have third := hnext refused (by decide +kernel)
  have fourth := hnext third (by decide +kernel)
  have hmembers : Sample.staffed.world.store.roleMembers "support" = ["ann", "bob", "cat"] := by decide
  have hbefore : Sample.staffed.world.store.tasks.length = 1 := rfl
  obtain ⟨hassignees, -⟩ := roundRobin_rotates fourth hmembers (List.cons_ne_nil _ _) hbefore
  exact ⟨_, _, fourth, hassignees.trans (by decide)⟩

/-! ### by work -/

/-- What leaves the work of a role as it is: its members stay, and so do their workloads. -/
structure KeepsWork (role : String) (u v : Session) : Prop where
  members : v.world.store.roleMembers role = u.world.store.roleMembers role
  workload : ∀ m ∈ u.world.store.roleMembers role, v.world.store.workload m = u.world.store.workload m

theorem chosen_by_work (hstrategy : t.strategy = .loadBalanced) (hrole : t.role = some role) {store : Store}
    (hm : store.roleMembers role ≠ []) : ∃ user ∈ store.roleMembers role, chosenAssignee store t = some user ∧
      chosenStore store t = store.addWorkload user ∧
      ∀ m ∈ store.roleMembers role, store.workload user ≤ store.workload m := by
  obtain ⟨user, huser, hfound, hleast⟩ := leastLoaded?_spec store hm
  have hchosen : chosenAssignee store t = some user := by
    rw [chosenAssignee, membersOf_role hrole, hstrategy]
    simp only
    rw [if_neg (by rwa [List.isEmpty_iff]), hfound]
  have hcounts : countsAsWork store t = true := by
    rw [countsAsWork, membersOf_role hrole, hstrategy, decide_eq_true rfl, Bool.true_and, Bool.not_eq_true',
      List.isEmpty_eq_false_iff]
    exact hm
  refine ⟨user, huser, hchosen, ?_, hleast⟩
  rw [chosenStore, hchosen, hcounts]
  rfl

/-- Tasks that are given by work, up to some session. -/
structure Levels (role : String) (s : Session) (turns : List Turn) (v : Session) : Prop where
  members : v.world.store.roleMembers role = s.world.store.roleMembers role
  imbalance : ∀ a ∈ s.world.store.roleMembers role, ∀ b ∈ s.world.store.roleMembers role,
    v.world.store.imbalance a b ≤ max 1 (s.world.store.imbalance a b)
  least : ∀ turn ∈ turns, ∃ user ∈ s.world.store.roleMembers role, turn.outcome.assignee? = some user ∧
    ∀ m ∈ s.world.store.roleMembers role, turn.before.world.store.workload user ≤ turn.before.world.store.workload m
  total : v.world.store.totalWork (s.world.store.roleMembers role) =
    s.world.store.totalWork (s.world.store.roleMembers role) + turns.length

theorem Levels.task (h : Levels role s turns u) (hm : s.world.store.roleMembers role ≠ [])
    (hstrategy : t.strategy = .loadBalanced) (hrole : t.role = some role) {o : Outcome} (hleaves : Leaves t u o v) :
    Levels role s (turns ++ [⟨u, o⟩]) v := by
  obtain ⟨task, hstore, -⟩ := hleaves.store
  have hne : u.world.store.roleMembers role ≠ [] := by rwa [h.members]
  obtain ⟨user, huser, hchosen, hwork, hleast⟩ := chosen_by_work hstrategy hrole hne
  rw [h.members] at huser hleast
  rw [hwork] at hstore
  refine ⟨?_, fun a ha b hb => ?_, fun turn hturn => ?_, ?_⟩
  · rw [hstore]
    exact h.members
  · have hstep := Store.imbalance_addWorkload hleast ha hb
    have hbefore := h.imbalance a ha b hb
    have hsame : v.world.store.imbalance a b = (u.world.store.addWorkload user).imbalance a b := by rw [hstore]; rfl
    omega
  · rcases List.mem_append.mp hturn with hturn | hturn
    · exact h.least turn hturn
    · rw [List.mem_singleton.mp hturn]
      exact ⟨user, huser, hleaves.assignee.trans hchosen, hleast⟩
  · have hsame : v.world.store.totalWork (s.world.store.roleMembers role) =
        (u.world.store.addWorkload user).totalWork (s.world.store.roleMembers role) := by rw [hstore]; rfl
    rw [hsame, Store.totalWork_addWorkload huser, h.total, List.length_append, List.length_singleton, Nat.add_assoc]

theorem Levels.other (h : Levels role s turns u) (hv : KeepsWork role u v) : Levels role s turns v := by
  have hwork : ∀ m ∈ s.world.store.roleMembers role, v.world.store.workload m = u.world.store.workload m := by
    rw [← h.members]
    exact hv.workload
  refine ⟨hv.members.trans h.members, fun a ha b hb => ?_, h.least, ?_⟩
  · rw [Store.imbalance, hwork a ha, hwork b hb]
    exact h.imbalance a ha b hb
  · rw [← h.total]
    exact Finset.sum_congr rfl fun m hmem => hwork m (List.mem_toFinset.mp hmem)

theorem TaskRun.levels (h : TaskRun .loadBalanced role (KeepsWork role) s turns v)
    (hm : s.world.store.roleMembers role ≠ []) : Levels role s turns v := by
  induction h with
  | start => exact ⟨rfl, fun _ _ _ _ => le_max_right _ _, fun _ hturn => absurd hturn List.not_mem_nil, rfl⟩
  | task _ hk ht hstrategy hrole hdone ih => exact ih.task hm hstrategy hrole (execute_leaves hk ht hdone)
  | failed _ hk hfailed ih => exact (execute_failed hk hfailed).symm ▸ ih
  | other _ hv ih => exact ih.other hv

/-- **Tasks that are given to the member with the least work keep the workloads of a role level**: they never get
further apart than by one, unless they were so before, and each task is one more piece of work for a member. -/
theorem loadBalanced_levels (h : TaskRun .loadBalanced role (KeepsWork role) s turns v)
    (hmembers : s.world.store.roleMembers role = members) (hm : members ≠ []) :
    (∀ a ∈ members, ∀ b ∈ members, v.world.store.imbalance a b ≤ max 1 (s.world.store.imbalance a b)) ∧
      (∀ turn ∈ turns, ∃ user ∈ members, turn.outcome.assignee? = some user ∧
        ∀ m ∈ members, turn.before.world.store.workload user ≤ turn.before.world.store.workload m) ∧
      v.world.store.totalWork members = s.world.store.totalWork members + turns.length := by
  subst hmembers
  have hlevels := h.levels hm
  exact ⟨hlevels.imbalance, hlevels.least, hlevels.total⟩

theorem loadBalanced_levels_ops : ∃ turns v,
    TaskRun .loadBalanced "ops" (KeepsWork "ops") Sample.staffed turns v ∧
      turns.map (·.outcome.assignee?) = [some "bob", some "bob", some "ann"] ∧
      Sample.staffed.world.store.imbalance "ann" "bob" = 2 ∧ v.world.store.imbalance "ann" "bob" ≤ 2 ∧
      v.world.store.totalWork ["ann", "bob", "ann"] = 5 := by
  have hnext {turns : List Turn} {u : Session}
      (h : TaskRun .loadBalanced "ops" (KeepsWork "ops") Sample.staffed turns u) :=
    h.task (c := Sample.recovering) (n := Sample.asking "load_balanced" "ops" (.int 1)) rfl rfl rfl rfl
  have first := hnext .start (by decide +kernel)
  have second := hnext first (by decide +kernel)
  have third := hnext second (by decide +kernel)
  have hmembers : Sample.staffed.world.store.roleMembers "ops" = ["ann", "bob", "ann"] := by decide
  obtain ⟨hlevel, -, htotal⟩ := loadBalanced_levels third hmembers (List.cons_ne_nil _ _)
  have hbefore : Sample.staffed.world.store.imbalance "ann" "bob" = 2 := by decide
  have hwork : Sample.staffed.world.store.totalWork ["ann", "bob", "ann"] = 2 := by decide
  refine ⟨_, _, third, by decide +kernel, hbefore, ?_, htotal.trans (congrArg (· + 3) hwork)⟩
  exact (hlevel "ann" (by decide) "bob" (by decide)).trans (by rw [hbefore]; decide)

/-- a task that is never due -/
def Sample.refused : Outcome × Session :=
  ((Sample.asking "load_balanced" "ops" Sample.never).execute Sample.recovering).run Sample.staffed

/-- A role without members leaves a task to the assignee in the settings, and a task node that fails leaves none:
neither is work for a member. -/
theorem loadBalanced_without_work :
    (∃ turn v, TaskRun .loadBalanced "nobody" (KeepsWork "nobody") Sample.staffed [turn] v ∧
      Sample.staffed.world.store.roleMembers "nobody" = [] ∧ turn.outcome.assignee? = some "zoe" ∧
      v.world.store.totalWork [] ≠ Sample.staffed.world.store.totalWork [] + 1) ∧
    Sample.refused.1.status = .failed ∧ Sample.refused.2.world.store.totalWork ["ann", "bob", "ann"] ≠
      Sample.staffed.world.store.totalWork ["ann", "bob", "ann"] + 1 := by
  have before : TaskRun .loadBalanced "nobody" (KeepsWork "nobody") Sample.staffed [] Sample.staffed := .start
  have first := before.task (c := Sample.recovering) (n := Sample.asking "load_balanced" "nobody" (.int 1)) rfl rfl rfl
    rfl (by decide +kernel)
  exact ⟨⟨_, _, first, rfl, by decide +kernel, by decide +kernel⟩, by decide +kernel⟩

end Node
end Workflows
