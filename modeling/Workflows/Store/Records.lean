import Workflows.Store.Basic

/-!
# Collections of records

A record is an object in a named collection.  Criteria are members that a record must have; numbers are compared as
doubles.  Each operation counts as a use of its collection and fails on a collection that is marked as failing.

* `Store.find`, `insert`, `update`, `delete`: the operations, each with the store after it
-/

namespace Workflows

/-- a member of a record meets an expected value -/
def Json.meets (actual expected : Json) : Bool :=
  match actual.double?, expected.double? with
  | some x, some y => x == y
  | _, _ => actual.same expected

/-- a record has all members that the criteria ask for -/
def Json.satisfies (record : Json) (criteria : Vars) : Bool :=
  criteria.all fun c => match record.member? c.1 with
    | some actual => actual.meets c.2
    | none => false

namespace Store

/-- Make every operation on a collection fail. -/
def markFailing (s : Store) (collection reason : String) : Store :=
  { s with failing := Dict.insert s.failing collection reason }

/-- how often a collection was used -/
def callsOf (s : Store) (collection : String) : Nat := (Dict.get? s.calls collection).getD 0

def records (s : Store) (collection : String) : List Json := (Dict.get? s.collections collection).getD []

/-- the store after one more use of a collection -/
def touch (s : Store) (collection : String) : Store :=
  { s with calls := Dict.insert s.calls collection (s.callsOf collection + 1) }

def setRecords (s : Store) (collection : String) (rs : List Json) : Store :=
  { s with collections := Dict.insert s.collections collection rs }

/-- an operation on a collection, unless it is marked as failing -/
def access (s : Store) (collection : String) (f : Store → Except StorageError α × Store) :
    Except StorageError α × Store :=
  match Dict.get? s.failing collection with
  | some reason => (.error (.backend reason), s.touch collection)
  | none => f (s.touch collection)

/-- the records that satisfy the criteria -/
def find (s : Store) (collection : String) (criteria : Vars) : Except StorageError (List Json) × Store :=
  s.access collection fun s => (.ok ((s.records collection).filter (·.satisfies criteria)), s)

/-- the id that a record brings along -/
def ownId? (members : Vars) : Option String := (Dict.get? members "id").bind Json.str?

/-- one more record; one without an id of its own is given `freshId` -/
def insert (s : Store) (collection : String) (record : Json) (freshId : String) :
    Except StorageError String × Store :=
  s.access collection fun s =>
    match record with
    | .obj members =>
      let id := (ownId? members).getD freshId
      (.ok id, s.setRecords collection (s.records collection ++ [.obj (Dict.insert members "id" (.str id))]))
    | _ => (.error (.backend ("records in '" ++ collection ++ "' must be objects")), s)

/-- a record with some members changed -/
def overlay (fields : Vars) : Json → Json
  | .obj members => .obj (Dict.overlay members fields)
  | v => v

def isRecord : Json → Bool
  | .obj _ => true
  | _ => false

/-- change some members of the records that satisfy the criteria, and count these -/
def update (s : Store) (collection : String) (criteria fields : Vars) : Except StorageError Nat × Store :=
  s.access collection fun s =>
    match Dict.get? s.collections collection with
    | none => (.ok 0, s)
    | some rs =>
      let chosen (r : Json) := r.satisfies criteria && isRecord r
      (.ok (rs.filter chosen).length,
        s.setRecords collection (rs.map fun r => if chosen r then overlay fields r else r))

/-- drop the records that satisfy the criteria, and count these -/
def delete (s : Store) (collection : String) (criteria : Vars) : Except StorageError Nat × Store :=
  s.access collection fun s =>
    match Dict.get? s.collections collection with
    | none => (.ok 0, s)
    | some rs =>
      (.ok (rs.filter (·.satisfies criteria)).length,
        s.setRecords collection (rs.filter fun r => !r.satisfies criteria))

end Store
end Workflows
