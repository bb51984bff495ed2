import Workflows.Proofs.Json.Records
import Workflows.Proofs.Time.Text
import Workflows.Store.Codec

/-!
# A store is read back as it was written

Every type of a store is read back from its stored form, field by field.  What a field cannot hold is excluded by a
predicate `Representable` for each type: numbers that do not fit their width, times outside of the supported years and
dictionaries that are not in key order.  Two contents are no such matter of form, and are lost nevertheless: an unknown
kind with the name of a known one is read as the known one, and an output `null` is read as no output.

* `NodeKind.Representable`, `LogEntry.Representable`: the kinds and outputs that are kept
* `Definition.restores`, `Instance.restores`, `ChildLink.restores`: the records of a store
* `Snapshot.decode_encode`: the whole store
-/

namespace Workflows
open Decode

/-! ## Points in time and optional values -/

theorem Instant.restores {t : Instant} (h : t.Representable) : Restores Instant.encode Instant.decode t :=
  Instant.read?_write h

theorem restores_optionText (o : Option String) : Restores Json.ofOptionText (orNull text) o :=
  restores_option (fun _ _ => Json.noConfusion) fun s _ => restores_text s

theorem restores_optionInstant {o : Option Instant} (h : ∀ t, o = some t → t.Representable) :
    Restores Json.ofOptionInstant (orNull Instant.decode) o :=
  restores_option (fun _ _ => Json.noConfusion) fun t ht => Instant.restores (h t ht)

/-! ## Words -/

theorem Lifecycle.restores (l : Lifecycle) : Restores Lifecycle.encode Lifecycle.decode l := by cases l <;> rfl

theorem NodeStatus.restores (s : NodeStatus) : Restores NodeStatus.encode NodeStatus.decode s := by cases s <;> rfl

theorem WaitKind.restores (k : WaitKind) : Restores WaitKind.encode WaitKind.decode k := by cases k <;> rfl

theorem InstanceStatus.restores (s : InstanceStatus) : Restores InstanceStatus.encode InstanceStatus.decode s := by
  cases s <;> rfl

theorem Assignment.restores (a : Assignment) : Restores Assignment.encode Assignment.decode a := by cases a <;> rfl

/-- an unknown kind does not bear the name of a known one -/
def NodeKind.Representable (k : NodeKind) : Prop := k.isKnown = false → ∀ known ∈ NodeKind.known, known.name ≠ k.name

instance (k : NodeKind) : Decidable k.Representable :=
  inferInstanceAs (Decidable (k.isKnown = false → ∀ known ∈ NodeKind.known, known.name ≠ k.name))

theorem NodeKind.restores {k : NodeKind} (h : k.Representable) : Restores NodeKind.encode NodeKind.decode k := by
  show some (NodeKind.ofName k.name) = some k
  cases k with
  | unknown name =>
    have hnone : NodeKind.known.find? (·.name = name) = none := by
      refine List.find?_eq_none.mpr fun known hknown => ?_
      rw [decide_eq_true_iff]
      exact h rfl known hknown
    rw [NodeKind.ofName, NodeKind.name, hnone]
  | _ => rfl

/-! ## Definitions -/

structure Node.Representable (n : Node) : Prop where
  kind : n.kind.Representable
  data : n.data.Ordered

theorem Node.restores {n : Node} (h : n.Representable) : Restores Node.encode Node.decode n := by
  refine plain_restored rfl (by decide) fun f hf => ?_
  have hid : f.required "id" text = some n.id := hf.required rfl rfl
  have hkind : f.required "type" NodeKind.decode = some n.kind := hf.required rfl (NodeKind.restores h.kind)
  have hname : f.orNone "name" text = some n.name := hf.orNone rfl (restores_optionText _)
  have hdata : f.withDefault "data" value .null = some n.data := hf.withDefault rfl (restores_value h.data)
  simp only [hid, hkind, hname, hdata, Option.bind_eq_bind, Option.bind_some, Option.pure_def]

/-- the handle has another name, under which it is not written -/
theorem Edge.restores (e : Edge) : Restores Edge.encode Edge.decode e := by
  refine record_restored rfl (by decide) (by decide) fun f hf => ?_
  have hid : f.required "id" text = some e.id := hf.required rfl rfl
  have hsource : f.required "source" text = some e.source := hf.required rfl rfl
  have htarget : f.required "target" text = some e.target := hf.required rfl rfl
  have hhandle : f.orNone "handle" text = some e.handle := hf.orNone rfl (restores_optionText _)
  have hlabel : f.orNone "label" text = some e.label := hf.orNone rfl (restores_optionText _)
  simp only [hid, hsource, htarget, hhandle, hlabel, Option.bind_eq_bind, Option.bind_some, Option.pure_def]

structure Definition.Representable (d : Definition) : Prop where
  version : d.version < 2 ^ 32
  nodes : ∀ n ∈ d.nodes, n.Representable

theorem Definition.restores {d : Definition} (h : d.Representable) :
    Restores Definition.encode Definition.decode d := by
  refine plain_restored rfl (by decide) fun f hf => ?_
  have hid : f.required "id" text = some d.id := hf.required rfl rfl
  have hname : f.required "name" text = some d.name := hf.required rfl rfl
  have hdescription : f.orNone "description" text = some d.description := hf.orNone rfl (restores_optionText _)
  have hstatus : f.withDefault "status" Lifecycle.decode .draft = some d.status :=
    hf.withDefault rfl (Lifecycle.restores _)
  have hversion : f.withDefault "version" (natural 32) 1 = some d.version :=
    hf.withDefault rfl (restores_natural h.version)
  have hoffered : f.withDefault "subprocess_compatible" bool false = some d.subprocessCompatible :=
    hf.withDefault rfl rfl
  have hnodes : f.required "nodes" (list Node.decode) = some d.nodes :=
    hf.required rfl (restores_list fun n hn => Node.restores (h.nodes n hn))
  have hedges : f.withDefault "edges" (list Edge.decode) [] = some d.edges :=
    hf.withDefault rfl (restores_list fun e _ => Edge.restores e)
  simp only [hid, hname, hdescription, hstatus, hversion, hoffered, hnodes, hedges, Option.bind_eq_bind,
    Option.bind_some, Option.pure_def]

structure Version.Representable (v : Version) : Prop where
  createdAt : v.createdAt.Representable
  definition : v.definition.Representable

theorem Version.restores {v : Version} (h : v.Representable) : Restores Version.encode Version.decode v := by
  refine plain_restored rfl (by decide) fun f hf => ?_
  have hworkflow : f.required "workflow_id" text = some v.workflowId := hf.required rfl rfl
  have hlabel : f.required "version" text = some v.label := hf.required rfl rfl
  have hstatus : f.required "status" Lifecycle.decode = some v.status := hf.required rfl (Lifecycle.restores _)
  have hcreated : f.required "created_at" Instant.decode = some v.createdAt :=
    hf.required rfl (Instant.restores h.createdAt)
  have hdefinition : f.required "definition" Definition.decode = some v.definition :=
    hf.required rfl (Definition.restores h.definition)
  simp only [hworkflow, hlabel, hstatus, hcreated, hdefinition, Option.bind_eq_bind, Option.bind_some,
    Option.pure_def]

/-! ## Instances -/

structure Wait.Representable (w : Wait) : Prop where
  deadline : ∀ t, w.deadline = some t → t.Representable

theorem Wait.restores {w : Wait} (h : w.Representable) : Restores Wait.encode Wait.decode w := by
  refine plain_restored rfl (by decide) fun f hf => ?_
  have hkind : f.required "kind" WaitKind.decode = some w.kind := hf.required rfl (WaitKind.restores _)
  have hid : f.required "id" text = some w.id := hf.required rfl rfl
  have hdeadline : f.orNone "deadline" Instant.decode = some w.deadline :=
    hf.orNone rfl (restores_optionInstant h.deadline)
  simp only [hkind, hid, hdeadline, Option.bind_eq_bind, Option.bind_some, Option.pure_def]

/-- an output is not `null` -/
structure LogEntry.Representable (e : LogEntry) : Prop where
  startedAt : e.startedAt.Representable
  completedAt : e.completedAt.Representable
  output : ∀ v, e.output = some v → v ≠ .null ∧ v.Ordered
  retries : e.retries < 2 ^ 32

theorem LogEntry.restores {e : LogEntry} (h : e.Representable) : Restores LogEntry.encode LogEntry.decode e := by
  refine plain_restored rfl (by decide) fun f hf => ?_
  have hid : f.required "node_id" text = some e.nodeId := hf.required rfl rfl
  have htype : f.required "node_type" text = some e.nodeType := hf.required rfl rfl
  have hstatus : f.required "status" NodeStatus.decode = some e.status := hf.required rfl (NodeStatus.restores _)
  have hstarted : f.required "started_at" Instant.decode = some e.startedAt :=
    hf.required rfl (Instant.restores h.startedAt)
  have hcompleted : f.required "completed_at" Instant.decode = some e.completedAt :=
    hf.required rfl (Instant.restores h.completedAt)
  have herror : f.optional "error" text = some e.error := hf.optional rfl (restores_optionText _)
  have houtput : f.orNone "output" value = some e.output :=
    hf.orNone rfl (restores_option (fun v hv => (h.output v hv).1) fun v hv => restores_value (h.output v hv).2)
  have hretries : f.withDefault "retry_count" (natural 32) 0 = some e.retries :=
    hf.withDefault rfl (restores_natural h.retries)
  simp only [hid, htype, hstatus, hstarted, hcompleted, herror, houtput, hretries, Option.bind_eq_bind,
    Option.bind_some, Option.pure_def]

structure ChildEntry.Representable (c : ChildEntry) : Prop where
  completedAt : ∀ t, c.completedAt = some t → t.Representable

theorem ChildEntry.restores {c : ChildEntry} (h : c.Representable) :
    Restores ChildEntry.encode ChildEntry.decode c := by
  refine plain_restored rfl (by decide) fun f hf => ?_
  have hid : f.required "instance_id" text = some c.instanceId := hf.required rfl rfl
  have hworkflow : f.required "workflow_id" text = some c.workflowId := hf.required rfl rfl
  have hnode : f.required "node_id" text = some c.nodeId := hf.required rfl rfl
  have hstatus : f.required "status" InstanceStatus.decode = some c.status :=
    hf.required rfl (InstanceStatus.restores _)
  have hcompleted : f.optional "completed_at" Instant.decode = some c.completedAt :=
    hf.optional rfl (restores_optionInstant h.completedAt)
  simp only [hid, hworkflow, hnode, hstatus, hcompleted, Option.bind_eq_bind, Option.bind_some, Option.pure_def]

structure Instance.Representable (i : Instance) : Prop where
  vars : i.vars.Ordered
  values : ∀ e ∈ i.vars, e.2.Ordered
  log : ∀ e ∈ i.log, e.Representable
  nodeStatuses : i.nodeStatuses.Ordered
  waitingFor : ∀ w, i.waitingFor = some w → w.Representable
  nestingLevel : i.nestingLevel < 2 ^ 32
  children : ∀ c ∈ i.children, c.Representable
  startedAt : i.startedAt.Representable
  updatedAt : i.updatedAt.Representable
  completedAt : ∀ t, i.completedAt = some t → t.Representable
  version : i.version < 2 ^ 64

theorem Instance.restores {i : Instance} (h : i.Representable) : Restores Instance.encode Instance.decode i := by
  refine plain_restored rfl (by decide) fun f hf => ?_
  have hid : f.required "id" text = some i.id := hf.required rfl rfl
  have hworkflow : f.required "workflow_id" text = some i.workflowId := hf.required rfl rfl
  have hpinned : f.orNone "workflow_version" text = some i.workflowVersion := hf.orNone rfl (restores_optionText _)
  have hstatus : f.required "status" InstanceStatus.decode = some i.status :=
    hf.required rfl (InstanceStatus.restores _)
  have hcurrent : f.optional "current_node_id" text = some i.currentNodeId := hf.optional rfl (restores_optionText _)
  have hvars : f.required "variables" object = some i.vars := hf.required rfl (restores_object h.vars h.values)
  have hlog : f.required "execution_log" (list LogEntry.decode) = some i.log :=
    hf.required rfl (restores_list fun e he => LogEntry.restores (h.log e he))
  have hstatuses : f.required "node_statuses" (dict NodeStatus.decode) = some i.nodeStatuses :=
    hf.required rfl (restores_dict h.nodeStatuses fun e _ => NodeStatus.restores e.2)
  have hwait : f.optional "waiting_for" Wait.decode = some i.waitingFor :=
    hf.optional rfl (restores_option (fun _ _ => Json.noConfusion) fun w hw => Wait.restores (h.waitingFor w hw))
  have herror : f.optional "error" text = some i.error := hf.optional rfl (restores_optionText _)
  have hfriendly : f.optional "friendly_error" text = some i.friendlyError := hf.optional rfl (restores_optionText _)
  have hby : f.required "triggered_by" text = some i.triggeredBy := hf.required rfl rfl
  have hparent : f.optional "parent_instance_id" text = some i.parentId := hf.optional rfl (restores_optionText _)
  have hlevel : f.required "nesting_level" (natural 32) = some i.nestingLevel :=
    hf.required rfl (restores_natural h.nestingLevel)
  have hchildren : f.required "children" (list ChildEntry.decode) = some i.children :=
    hf.required rfl (restores_list fun c hc => ChildEntry.restores (h.children c hc))
  have hstarted : f.required "started_at" Instant.decode = some i.startedAt :=
    hf.required rfl (Instant.restores h.startedAt)
  have hupdated : f.required "updated_at" Instant.decode = some i.updatedAt :=
    hf.required rfl (Instant.restores h.updatedAt)
  have hcompleted : f.optional "completed_at" Instant.decode = some i.completedAt :=
    hf.optional rfl (restores_optionInstant h.completedAt)
  have hversion : f.withDefault "version" (natural 64) 0 = some i.version :=
    hf.withDefault rfl (restores_natural h.version)
  simp only [hid, hworkflow, hpinned, hstatus, hcurrent, hvars, hlog, hstatuses, hwait, herror, hfriendly, hby,
    hparent, hlevel, hchildren, hstarted, hupdated, hcompleted, hversion, Option.bind_eq_bind, Option.bind_some,
    Option.pure_def]

structure ChildLink.Representable (l : ChildLink) : Prop where
  outputMapping : l.outputMapping.Ordered
  nestingLevel : l.nestingLevel < 2 ^ 32
  createdAt : l.createdAt.Representable

theorem ChildLink.restores {l : ChildLink} (h : l.Representable) : Restores ChildLink.encode ChildLink.decode l := by
  refine plain_restored rfl (by decide) fun f hf => ?_
  have hparent : f.required "parent_instance_id" text = some l.parentId := hf.required rfl rfl
  have hnode : f.required "parent_node_id" text = some l.parentNodeId := hf.required rfl rfl
  have hchild : f.required "child_instance_id" text = some l.childId := hf.required rfl rfl
  have hmapping : f.required "output_mapping" (dict text) = some l.outputMapping :=
    hf.required rfl (restores_dict h.outputMapping fun e _ => restores_text e.2)
  have hisolated : f.required "isolated" bool = some l.isolated := hf.required rfl rfl
  have hlevel : f.required "nesting_level" (natural 32) = some l.nestingLevel :=
    hf.required rfl (restores_natural h.nestingLevel)
  have hcreated : f.required "created_at" Instant.decode = some l.createdAt :=
    hf.required rfl (Instant.restores h.createdAt)
  simp only [hparent, hnode, hchild, hmapping, hisolated, hlevel, hcreated, Option.bind_eq_bind, Option.bind_some,
    Option.pure_def]

/-! ## What nodes have left for people -/

structure Task.Representable (t : Task) : Prop where
  dueDate : ∀ u, t.dueDate = some u → u.Representable
  createdAt : t.createdAt.Representable

theorem Task.restores {t : Task} (h : t.Representable) : Restores Task.encode Task.decode t := by
  refine plain_restored rfl (by decide) fun f hf => ?_
  have hid : f.required "id" text = some t.id := hf.required rfl rfl
  have hinstance : f.required "instance_id" text = some t.instanceId := hf.required rfl rfl
  have hnode : f.required "node_id" text = some t.nodeId := hf.required rfl rfl
  have htitle : f.required "title" text = some t.title := hf.required rfl rfl
  have hdescription : f.optional "description" text = some t.description := hf.optional rfl (restores_optionText _)
  have hassignee : f.optional "assignee" text = some t.assignee := hf.optional rfl (restores_optionText _)
  have hrole : f.optional "role" text = some t.role := hf.optional rfl (restores_optionText _)
  have hstrategy : f.required "strategy" Assignment.decode = some t.strategy := hf.required rfl (Assignment.restores _)
  have hstatus : f.required "status" text = some t.status := hf.required rfl rfl
  have hdue : f.optional "due_date" Instant.decode = some t.dueDate := hf.optional rfl (restores_optionInstant h.dueDate)
  have hcreated : f.required "created_at" Instant.decode = some t.createdAt :=
    hf.required rfl (Instant.restores h.createdAt)
  simp only [hid, hinstance, hnode, htitle, hdescription, hassignee, hrole, hstrategy, hstatus, hdue, hcreated,
    Option.bind_eq_bind, Option.bind_some, Option.pure_def]

structure ApprovalDecision.Representable (d : ApprovalDecision) : Prop where
  decidedAt : d.decidedAt.Representable

theorem ApprovalDecision.restores {d : ApprovalDecision} (h : d.Representable) :
    Restores ApprovalDecision.encode ApprovalDecision.decode d := by
  refine plain_restored rfl (by decide) fun f hf => ?_
  have happrover : f.required "approver" text = some d.approver := hf.required rfl rfl
  have hdecision : f.required "decision" text = some d.decision := hf.required rfl rfl
  have hcomment : f.optional "comment" text = some d.comment := hf.optional rfl (restores_optionText _)
  have hdecided : f.required "decided_at" Instant.decode = some d.decidedAt :=
    hf.required rfl (Instant.restores h.decidedAt)
  simp only [happrover, hdecision, hcomment, hdecided, Option.bind_eq_bind, Option.bind_some, Option.pure_def]

structure Approval.Representable (a : Approval) : Prop where
  decisions : ∀ d ∈ a.decisions, d.Representable
  createdAt : a.createdAt.Representable

theorem Approval.restores {a : Approval} (h : a.Representable) : Restores Approval.encode Approval.decode a := by
  refine plain_restored rfl (by decide) fun f hf => ?_
  have hid : f.required "id" text = some a.id := hf.required rfl rfl
  have hinstance : f.required "instance_id" text = some a.instanceId := hf.required rfl rfl
  have hnode : f.required "node_id" text = some a.nodeId := hf.required rfl rfl
  have htitle : f.required "title" text = some a.title := hf.required rfl rfl
  have happrovers : f.required "approvers" (list text) = some a.approvers :=
    hf.required rfl (restores_list fun s _ => restores_text s)
  have htype : f.required "approval_type" text = some a.approvalType := hf.required rfl rfl
  have hdecisions : f.required "decisions" (list ApprovalDecision.decode) = some a.decisions :=
    hf.required rfl (restores_list fun d hd => ApprovalDecision.restores (h.decisions d hd))
  have hstatus : f.required "status" text = some a.status := hf.required rfl rfl
  have hcreated : f.required "created_at" Instant.decode = some a.createdAt :=
    hf.required rfl (Instant.restores h.createdAt)
  simp only [hid, hinstance, hnode, htitle, happrovers, htype, hdecisions, hstatus, hcreated, Option.bind_eq_bind,
    Option.bind_some, Option.pure_def]

structure EmittedEvent.Representable (e : EmittedEvent) : Prop where
  payload : e.payload.Ordered
  createdAt : e.createdAt.Representable

theorem EmittedEvent.restores {e : EmittedEvent} (h : e.Representable) :
    Restores EmittedEvent.encode EmittedEvent.decode e := by
  refine plain_restored rfl (by decide) fun f hf => ?_
  have hid : f.required "id" text = some e.id := hf.required rfl rfl
  have hname : f.required "name" text = some e.name := hf.required rfl rfl
  have hinstance : f.required "instance_id" text = some e.instanceId := hf.required rfl rfl
  have hnode : f.required "node_id" text = some e.nodeId := hf.required rfl rfl
  have hpayload : f.required "payload" value = some e.payload := hf.required rfl (restores_value h.payload)
  have hcreated : f.required "created_at" Instant.decode = some e.createdAt :=
    hf.required rfl (Instant.restores h.createdAt)
  simp only [hid, hname, hinstance, hnode, hpayload, hcreated, Option.bind_eq_bind, Option.bind_some,
    Option.pure_def]

/-! ## The store -/

structure Snapshot.Representable (s : Snapshot) : Prop where
  workflows : s.workflows.Ordered
  definitions : ∀ e ∈ s.workflows, e.2.Representable
  versions : s.versions.Ordered
  versionsOf : ∀ e ∈ s.versions, ∀ v ∈ e.2, v.Representable
  instances : s.instances.Ordered
  runs : ∀ e ∈ s.instances, e.2.Representable
  links : s.links.Ordered
  linksOf : ∀ e ∈ s.links, e.2.Representable
  tasks : ∀ t ∈ s.tasks, t.Representable
  approvals : ∀ a ∈ s.approvals, a.Representable
  events : ∀ e ∈ s.events, e.Representable
  roles : s.roles.Ordered
  workloads : s.workloads.Ordered
  workloadOf : ∀ e ∈ s.workloads, e.2 < 2 ^ 64
  collections : s.collections.Ordered
  records : ∀ e ∈ s.collections, ∀ v ∈ e.2, v.Ordered

/-- **A store is read back as it was written.** -/
theorem Snapshot.decode_encode {s : Snapshot} (h : s.Representable) : Snapshot.decode s.encode = some s := by
  refine plain_restored rfl (by decide) fun f hf => ?_
  have hworkflows : f.required "workflows" (dict Definition.decode) = some s.workflows :=
    hf.required rfl (restores_dict h.workflows fun e he => Definition.restores (h.definitions e he))
  have hversions : f.required "versions" (dict (list Version.decode)) = some s.versions :=
    hf.required rfl (restores_dict h.versions fun e he => restores_list fun v hv =>
      Version.restores (h.versionsOf e he v hv))
  have hinstances : f.required "instances" (dict Instance.decode) = some s.instances :=
    hf.required rfl (restores_dict h.instances fun e he => Instance.restores (h.runs e he))
  have hlinks : f.required "links" (dict ChildLink.decode) = some s.links :=
    hf.required rfl (restores_dict h.links fun e he => ChildLink.restores (h.linksOf e he))
  have htasks : f.required "tasks" (list Task.decode) = some s.tasks :=
    hf.required rfl (restores_list fun t ht => Task.restores (h.tasks t ht))
  have happrovals : f.required "approvals" (list Approval.decode) = some s.approvals :=
    hf.required rfl (restores_list fun a ha => Approval.restores (h.approvals a ha))
  have hevents : f.required "events" (list EmittedEvent.decode) = some s.events :=
    hf.required rfl (restores_list fun e he => EmittedEvent.restores (h.events e he))
  have hroles : f.required "roles" (dict (list text)) = some s.roles :=
    hf.required rfl (restores_dict h.roles fun e _ => restores_list fun m _ => restores_text m)
  have hworkloads : f.required "workloads" (dict (natural 64)) = some s.workloads :=
    hf.required rfl (restores_dict h.workloads fun e he => restores_natural (h.workloadOf e he))
  have hcollections : f.required "collections" (dict (list value)) = some s.collections :=
    hf.required rfl (restores_dict h.collections fun e he => restores_values (h.records e he))
  simp only [hworkflows, hversions, hinstances, hlinks, htasks, happrovals, hevents, hroles, hworkloads,
    hcollections, Option.bind_eq_bind, Option.bind_some, Option.pure_def]

namespace Sample

/-- half a second into the leap second at the end of 2016 -/
def leapSecond : Instant := ⟨1483228799, 1500000000⟩

/-- a workflow with a node of a kind that is no longer known -/
def outdated : Definition where
  id := "outdated"
  name := "Outdated"
  description := none
  status := .published
  version := 3
  subprocessCompatible := true
  nodes := [⟨"begin", .start, none, .null⟩, ⟨"send", .unknown "fax", some "Send", .obj [("number", .int 555)]⟩]
  edges := [⟨"e", "begin", "send", some "main", none⟩]

/-- a run that waits for a child -/
def suspended : Instance := { Instance.create "i" "outdated" "system" [("x", .arr [.int 1, .null])] leapSecond with
  status := .waiting
  log := [⟨"begin", "start", .completed, leapSecond, leapSecond, none, some (.obj [("done", .bool true)]), 2⟩]
  nodeStatuses := [("begin", .completed), ("send", .waiting)]
  waitingFor := some ⟨.subprocess, "ii", some leapSecond⟩
  children := [⟨"iii", "outdated", "send", .failed, some leapSecond⟩] }

def kept : Snapshot where
  workflows := [("outdated", outdated)]
  versions := [("outdated", [⟨"outdated", "v3", .published, leapSecond, outdated⟩])]
  instances := [("i", suspended)]
  links := [("ii", ⟨"i", "send", "ii", [("y", "x")], true, 1, leapSecond⟩)]
  events := [⟨"e", "sent", "i", "send", .obj [("y", .null)], leapSecond⟩]
  roles := [("clerks", ["ann", "bob"])]
  workloads := [("ann", 2)]
  collections := [("orders", [.obj [("id", .str "o"), ("total", .double 1.5)]])]

theorem leapSecond_representable : leapSecond.Representable := ⟨by decide, .inr ⟨by decide, by decide⟩⟩

theorem outdated_representable : outdated.Representable where
  version := by decide
  nodes := by
    intro n hn
    have hcases : n = ⟨"begin", .start, none, .null⟩ ∨
        n = ⟨"send", .unknown "fax", some "Send", .obj [("number", .int 555)]⟩ := by simpa [outdated] using hn
    rcases hcases with rfl | rfl
    · exact ⟨by decide, trivial⟩
    · exact ⟨by decide, List.pairwise_singleton _ _, trivial, trivial⟩

theorem suspended_representable : suspended.Representable where
  vars := List.pairwise_singleton _ _
  values := List.forall_mem_singleton.mpr ⟨trivial, trivial, trivial⟩
  log := List.forall_mem_singleton.mpr {
    startedAt := leapSecond_representable
    completedAt := leapSecond_representable
    output := fun v hv => by
      cases hv
      exact ⟨Json.noConfusion, List.pairwise_singleton _ _, trivial, trivial⟩
    retries := by decide }
  nodeStatuses := by unfold Dict.Ordered; decide
  waitingFor := fun w hw => by
    cases hw
    exact ⟨fun t ht => by cases ht; exact leapSecond_representable⟩
  nestingLevel := by decide
  children := List.forall_mem_singleton.mpr ⟨fun t ht => by cases ht; exact leapSecond_representable⟩
  startedAt := leapSecond_representable
  updatedAt := leapSecond_representable
  completedAt := fun t ht => by cases ht
  version := by decide

theorem kept_representable : kept.Representable where
  workflows := List.pairwise_singleton _ _
  definitions := List.forall_mem_singleton.mpr outdated_representable
  versions := List.pairwise_singleton _ _
  versionsOf := List.forall_mem_singleton.mpr
    (List.forall_mem_singleton.mpr ⟨leapSecond_representable, outdated_representable⟩)
  instances := List.pairwise_singleton _ _
  runs := List.forall_mem_singleton.mpr suspended_representable
  links := List.pairwise_singleton _ _
  linksOf := List.forall_mem_singleton.mpr ⟨List.pairwise_singleton _ _, by decide, leapSecond_representable⟩
  tasks := List.forall_mem_nil _
  approvals := List.forall_mem_nil _
  events := List.forall_mem_singleton.mpr
    ⟨⟨List.pairwise_singleton _ _, trivial, trivial⟩, leapSecond_representable⟩
  roles := List.pairwise_singleton _ _
  workloads := List.pairwise_singleton _ _
  workloadOf := List.forall_mem_singleton.mpr (by decide)
  collections := List.pairwise_singleton _ _
  records := List.forall_mem_singleton.mpr (List.forall_mem_singleton.mpr
    ⟨by unfold Dict.Ordered; decide, trivial, trivial, trivial⟩)

theorem kept_decode_encode : kept.Representable ∧ Snapshot.decode kept.encode = some kept :=
  ⟨kept_representable, Snapshot.decode_encode kept_representable⟩

end Sample
end Workflows
