import Workflows.Json.Basic
import Workflows.Time.Instant

/-!
# Workflow definitions

A workflow is a directed graph of typed nodes.  The kind of a node decides what it does, and its settings are a
free value that the kind reads.

* `Lifecycle`: the state of a definition
* `NodeKind`: the kinds of nodes; a name that is no kind is kept, so that such a node fails when it is run
* `Node`, `Edge`, `Definition`: the graph
* `Version`: a definition saved under a label
-/

namespace Workflows

/-- The state of a definition or of one of its versions. -/
inductive Lifecycle where
  | draft | published | deprecated | archived
  deriving DecidableEq, Repr

namespace Lifecycle

def name : Lifecycle → String
  | .draft => "draft"
  | .published => "published"
  | .deprecated => "deprecated"
  | .archived => "archived"

def all : List Lifecycle := [.draft, .published, .deprecated, .archived]

end Lifecycle

/-- What a node does. -/
inductive NodeKind where
  | start | finish
  | task | decision | switch | approval | form | screen | action
  | parallel | merge | timer | subprocess | event | assignment
  | loopForEach | loopWhile | loopDoWhile | loopRepeat | loopBreak | loopContinue
  | lookupRecord | createRecord | updateRecord | deleteRecord
  | transform | filter | sort | aggregate | calculate
  /-- a name that is no kind -/
  | unknown (name : String)
  deriving DecidableEq, Repr

namespace NodeKind

def name : NodeKind → String
  | .start => "start"
  | .finish => "end"
  | .task => "task"
  | .decision => "decision"
  | .switch => "switch"
  | .approval => "approval"
  | .form => "form"
  | .screen => "screen"
  | .action => "action"
  | .parallel => "parallel"
  | .merge => "merge"
  | .timer => "timer"
  | .subprocess => "subprocess"
  | .event => "event"
  | .assignment => "assignment"
  | .loopForEach => "loop_for_each"
  | .loopWhile => "loop_while"
  | .loopDoWhile => "loop_do_while"
  | .loopRepeat => "loop_repeat"
  | .loopBreak => "loop_break"
  | .loopContinue => "loop_continue"
  | .lookupRecord => "lookup_record"
  | .createRecord => "create_record"
  | .updateRecord => "update_record"
  | .deleteRecord => "delete_record"
  | .transform => "transform"
  | .filter => "filter"
  | .sort => "sort"
  | .aggregate => "aggregate"
  | .calculate => "calculate"
  | .unknown name => name

/-- the kinds that can be run -/
def known : List NodeKind := [
  .start, .finish, .task, .decision, .switch, .approval, .form, .screen, .action, .parallel, .merge, .timer,
  .subprocess, .event, .assignment, .loopForEach, .loopWhile, .loopDoWhile, .loopRepeat, .loopBreak,
  .loopContinue, .lookupRecord, .createRecord, .updateRecord, .deleteRecord, .transform, .filter, .sort,
  .aggregate, .calculate]

/-- the kind with a name -/
def ofName (s : String) : NodeKind :=
  match known.find? (·.name = s) with
  | some k => k
  | none => .unknown s

def isKnown : NodeKind → Bool
  | .unknown _ => false
  | _ => true

/-- the kinds that are tried again after a transient failure -/
def isRetryable : NodeKind → Bool
  | .action | .lookupRecord | .createRecord | .updateRecord => true
  | _ => false

end NodeKind

/-- A step of a workflow. -/
structure Node where
  id : String
  kind : NodeKind
  name : Option String
  /-- the settings, as the kind reads them -/
  data : Json
  deriving DecidableEq

/-- A directed connection of two nodes. -/
structure Edge where
  id : String
  source : String
  target : String
  /-- the branch that the edge continues -/
  handle : Option String
  /-- the text on the edge; it names the branch where there is no handle -/
  label : Option String
  deriving DecidableEq, Repr

/-- A workflow. -/
structure Definition where
  id : String
  name : String
  description : Option String
  status : Lifecycle
  version : Nat
  /-- offered for use by subprocess nodes -/
  subprocessCompatible : Bool
  nodes : List Node
  edges : List Edge
  deriving DecidableEq

/-- A definition saved under a label. -/
structure Version where
  workflowId : String
  label : String
  status : Lifecycle
  createdAt : Instant
  definition : Definition
  deriving DecidableEq

end Workflows
