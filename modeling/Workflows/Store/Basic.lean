import Workflows.Error
import Workflows.Instance.Basic
import Workflows.Inbox.Basic

/-!
# The store

A store holds definitions and their versions, instances and the links between them, what nodes have left for
people, and collections of records.

* `Snapshot`: the contents
* `Store`: the contents, and what is known about failing collections
* `Store.updateInstance`: a write that succeeds only for the latest version of a record
* `Store.saveVersion`: one version per label, the oldest first
-/

namespace Workflows

/-- The contents of a store. -/
structure Snapshot where
  workflows : Dict Definition := []
  /-- the versions of each workflow, the oldest first -/
  versions : Dict (List Version) := []
  instances : Dict Instance := []
  /-- the links by the id of the child -/
  links : Dict ChildLink := []
  tasks : List Task := []
  approvals : List Approval := []
  events : List EmittedEvent := []
  /-- the members of each role -/
  roles : Dict (List String) := []
  /-- how many tasks each user was given -/
  workloads : Dict Nat := []
  collections : Dict (List Json) := []
  deriving DecidableEq

/-- A store. -/
structure Store extends Snapshot where
  /-- the collections whose operations fail, with the reason -/
  failing : Dict String := []
  /-- how often each collection was used, failed operations included -/
  calls : Dict Nat := []
  deriving DecidableEq

namespace Store

def ofSnapshot (s : Snapshot) : Store := { s with }

/-! ### definitions -/

def getWorkflow? (s : Store) (id : String) : Option Definition := Dict.get? s.workflows id

def saveWorkflow (s : Store) (d : Definition) : Store :=
  { s with workflows := Dict.insert s.workflows d.id d }

def listVersions (s : Store) (workflowId : String) : List Version :=
  (Dict.get? s.versions workflowId).getD []

/-- a version behind the last one that is not younger -/
def insertByAge (v : Version) : List Version → List Version
  | [] => [v]
  | w :: ws => if v.createdAt.before w.createdAt then v :: w :: ws else w :: insertByAge v ws

/-- the versions by age; versions of one age keep their order -/
def sortByAge (vs : List Version) : List Version := vs.foldl (fun acc v => insertByAge v acc) []

/-- the store with a version, in place of any other with its label -/
def saveVersion (s : Store) (v : Version) : Store :=
  let others := (s.listVersions v.workflowId).filter fun w => w.label ≠ v.label
  { s with versions := Dict.insert s.versions v.workflowId (sortByAge (others ++ [v])) }

/-! ### instances -/

def getInstance? (s : Store) (id : String) : Option Instance := Dict.get? s.instances id

def insertInstance (s : Store) (i : Instance) : Store :=
  { s with instances := Dict.insert s.instances i.id i }

/-- The store with a changed record, and the record with its new version.  The write is refused where the record is
not stored, or where the stored version is not the one that the writer has read. -/
def updateInstance (s : Store) (i : Instance) : Except StorageError (Store × Instance) :=
  match s.getInstance? i.id with
  | none => .error (.notFound i.id)
  | some stored =>
    if stored.version = i.version then
      let next := { i with version := i.version + 1 }
      .ok ({ s with instances := Dict.insert s.instances i.id next }, next)
    else .error (.conflict i.id i.version stored.version)

/-- an instance behind the last one that has not started later -/
def insertByStart (i : Instance) : List Instance → List Instance
  | [] => [i]
  | j :: js => if i.startedAt.before j.startedAt then i :: j :: js else j :: insertByStart i js

/-- instances by start; those of one start keep their order -/
def sortByStart (is : List Instance) : List Instance := is.foldl (fun acc i => insertByStart i acc) []

/-- the children of an instance by start -/
def childrenOf (s : Store) (parentId : String) : List Instance :=
  sortByStart ((Dict.values s.instances).filter fun i => i.parentId = some parentId)

def insertLink (s : Store) (l : ChildLink) : Store :=
  { s with links := Dict.insert s.links l.childId l }

def getLink? (s : Store) (childId : String) : Option ChildLink := Dict.get? s.links childId

/-! ### people -/

def insertTask (s : Store) (t : Task) : Store := { s with tasks := s.tasks ++ [t] }

def insertApproval (s : Store) (a : Approval) : Store := { s with approvals := s.approvals ++ [a] }

def insertEvent (s : Store) (e : EmittedEvent) : Store := { s with events := s.events ++ [e] }

def setRole (s : Store) (role : String) (members : List String) : Store :=
  { s with roles := Dict.insert s.roles role members }

def roleMembers (s : Store) (role : String) : List String := (Dict.get? s.roles role).getD []

def workload (s : Store) (user : String) : Nat := (Dict.get? s.workloads user).getD 0

/-- the store after one more task for a user -/
def addWorkload (s : Store) (user : String) : Store :=
  { s with workloads := Dict.insert s.workloads user (s.workload user + 1) }

end Store
end Workflows
