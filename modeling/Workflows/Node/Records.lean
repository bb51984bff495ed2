import Workflows.Node.Session

/-!
# Records

Nodes that find, create, change and delete records of a collection.  The collection has to be named before anything
else happens, and a deletion needs criteria.
-/

namespace Workflows.Node
open Decode NodeRun

structure RecordSettings where
  collection : Option String
  criteria : Vars
  fields : Vars
  outputVariable : Option String

def RecordSettings.decode : Decoder RecordSettings := fun v => do
  let f ← Decode.fields
    [("collection", []), ("criteria", []), ("fields", ["data", "record"]), ("output_variable", [])] v
  return {
    collection := ← f.orNone "collection" text
    criteria := ← f.withDefault "criteria" object []
    fields := ← f.withDefault "fields" object []
    outputVariable := ← f.orNone "output_variable" text }

/-- the settings of a record node and the name of its collection -/
def recordSettings (n : Node) : NodeRun (RecordSettings × String) := do
  let s ← n.settings RecordSettings.decode
  let collection ← demand (s.collection.filter (· ≠ ""))
    ("No collection configured for " ++ n.kind.name ++ " node " ++ n.id)
  return (s, collection)

def lookupRecord (n : Node) : NodeRun Outcome := do
  let (s, collection) ← recordSettings n
  let criteria := evaluateMembers (← vars) s.criteria
  let records ← onStore (·.find collection criteria)
  setVar? s.outputVariable (.arr records)
  return .done (.ofMembers [("count", .ofNat records.length), ("record", records.head?.getD .null),
    ("records", .arr records)])

def createRecord (c : NodeContext) (n : Node) : NodeRun Outcome := do
  let (s, collection) ← recordSettings n
  let members := evaluateMembers (← vars) s.fields
  let freshId ← c.freshId
  let id ← onStore (·.insert collection (.obj members) freshId)
  c.info n ("Created record " ++ id ++ " in " ++ collection)
  setVar? s.outputVariable (.str id)
  return .done (.ofMembers [("record_id", .str id), ("collection", .str collection)])

def updateRecord (n : Node) : NodeRun Outcome := do
  let (s, collection) ← recordSettings n
  let vs ← vars
  let updated ← onStore (·.update collection (evaluateMembers vs s.criteria) (evaluateMembers vs s.fields))
  return .done (.ofMembers [("updated_count", .ofNat updated)])

def deleteRecord (n : Node) : NodeRun Outcome := do
  let (s, collection) ← recordSettings n
  let criteria := evaluateMembers (← vars) s.criteria
  if criteria.isEmpty then
    misconfigured ("Refusing to delete from " ++ collection ++ " without criteria on node " ++ n.id)
  else
    let deleted ← onStore (·.delete collection criteria)
    return .done (.ofMembers [("deleted_count", .ofNat deleted)])

end Workflows.Node
