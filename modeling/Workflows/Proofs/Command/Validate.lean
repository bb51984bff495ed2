import Workflows.Command.Perform
import Workflows.Proofs.Definition.Reach
import Workflows.Proofs.Run

/-!
# What is accepted

Main statement: the command that checks a workflow accepts a file if and only if the definition in
it is wellformed (`validateWorkflow_ok_iff`).  Unreachable nodes are no problem for it.
-/

namespace Workflows
variable {d : Definition}

theorem danglingEdges_eq_nil_iff : d.danglingEdges = [] ↔
    ∀ e ∈ d.edges, d.hasNode e.source = true ∧ d.hasNode e.target = true := by
  simp only [Definition.danglingEdges, List.filter_eq_nil_iff, Bool.or_eq_true, Bool.not_eq_true',
    not_or, Bool.not_eq_false]

theorem unknownKind?_eq_none_iff {n : Node} : n.unknownKind? = none ↔ n.kind.isKnown = true := by
  unfold Node.unknownKind?
  cases n.kind <;> simp [NodeKind.isKnown]

/-- A definition without problems is wellformed. -/
theorem problems_eq_nil_iff : (checkDefinition d).problems = [] ↔ d.Wellformed := by
  simp only [checkDefinition, List.append_eq_nil_iff, List.map_eq_nil_iff, danglingEdges_eq_nil_iff,
    List.filterMap_eq_nil_iff, unknownKind?_eq_none_iff]
  constructor
  · rintro ⟨⟨hstart, hedges⟩, hkinds⟩
    refine ⟨?_, hedges, hkinds⟩
    cases hs : d.startNode? with
    | none =>
      rw [hs] at hstart
      cases hstart
    | some n => exact ⟨n, rfl⟩
  · rintro ⟨⟨n, hn⟩, hedges, hkinds⟩
    refine ⟨⟨?_, hedges⟩, hkinds⟩
    rw [hn]
    rfl

namespace Script

theorem runFrom_printAll (lines : List String) (t : Terminal) :
    ∃ t', runFrom (printAll lines) t = (.ok (), t') := by
  induction lines generalizing t with
  | nil => exact ⟨t, rfl⟩
  | cons l ls ih =>
    unfold printAll
    have hprint : runFrom (print l) t = (.ok (), { t with printed := t.printed.push l }) := rfl
    rw [runFrom_bind_ok hprint]
    exact ih _

/-- the workflow in a file on a disk -/
def workflowIn (disk : Disk) (file : String) : Except Failure Definition :=
  match disk.read file with
  | .error e => .error ⟨"cannot read workflow " ++ file, [e.message]⟩
  | .ok text => match (Json.readRaw? text).bind Definition.decode with
    | some d => .ok d
    | none => .error ⟨"invalid workflow " ++ file, [Failure.unreadableValue]⟩

/-- loading a workflow reads the disk and nothing else -/
theorem runFrom_loadWorkflow (file : String) (t : Terminal) :
    runFrom (loadWorkflow file) t = (workflowIn t.disk file, t) := by
  unfold loadWorkflow readFile decodeText workflowIn
  rw [runFrom_bind, runFrom_bind, runFrom_get]
  dsimp only
  cases t.disk.read file with
  | error e => rfl
  | ok text =>
    have hread : runFrom (pure text : Script String) t = (.ok text, t) := rfl
    rw [hread]
    dsimp only
    cases (Json.readRaw? text).bind Definition.decode with
    | none => rfl
    | some d => rfl

/-- **A file is accepted if and only if its definition is wellformed.** -/
theorem validateWorkflow_ok_iff {t : Terminal} {file : String}
    (h : (runFrom (loadWorkflow file) t).1 = .ok d) :
    (runFrom (validateWorkflow file) t).1 = .ok () ↔ d.Wellformed := by
  have hprint : runFrom (print ("🔍 Validating workflow: " ++ file)) t =
      (.ok (), { t with printed := t.printed.push ("🔍 Validating workflow: " ++ file) }) := rfl
  have hload : ∀ printed, runFrom (loadWorkflow file) ⟨t.disk, printed⟩ =
      (.ok d, ⟨t.disk, printed⟩) := by
    intro printed
    rw [runFrom_loadWorkflow] at h ⊢
    rw [show workflowIn t.disk file = .ok d from h]
  unfold validateWorkflow
  rw [runFrom_bind_ok hprint, runFrom_bind_ok (hload _)]
  dsimp only
  obtain ⟨t', hwarnings⟩ := runFrom_printAll ((checkDefinition d).warnings.map ("   ⚠️  " ++ ·))
    { t with printed := t.printed.push ("🔍 Validating workflow: " ++ file) }
  rw [runFrom_bind_ok hwarnings, ← problems_eq_nil_iff, ← List.isEmpty_iff]
  split
  · next hempty =>
    obtain ⟨u, hlines⟩ := runFrom_printAll ["✅ Workflow is valid:", "   Name: " ++ d.name,
      "   Status: " ++ d.status.name, "   Nodes: " ++ toString d.nodes.length,
      "   Edges: " ++ toString d.edges.length] t'
    rw [hlines]
    exact iff_of_true rfl hempty
  · next hfound =>
    obtain ⟨u, hlines⟩ := runFrom_printAll ((checkDefinition d).problems.map ("   ❌ " ++ ·)) t'
    rw [runFrom_bind_ok hlines]
    exact iff_of_false nofun hfound

end Script
end Workflows
