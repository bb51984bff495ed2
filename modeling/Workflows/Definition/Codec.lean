import Workflows.Json.Decode
import Workflows.Definition.Basic

/-!
# Stored form of definitions

Each type of a definition is read from a value and written back with all its fields.
-/

namespace Workflows

/-- points in time are written as text -/
def Instant.encode (t : Instant) : Json := .str t.write

def Instant.decode : Decoder Instant
  | .str s => Instant.read? s
  | _ => none

namespace Json

def ofOptionText : Option String → Json := ofOption .str

def ofOptionInstant : Option Instant → Json := ofOption Instant.encode

/-- a list of values -/
def ofList (encode : α → Json) (items : List α) : Json := .arr (items.map encode)

/-- a dictionary of values -/
def ofDict (encode : α → Json) (d : Dict α) : Json := .obj (Dict.mapValues encode d)

end Json

open Decode

def Lifecycle.encode (l : Lifecycle) : Json := .str l.name

def Lifecycle.decode : Decoder Lifecycle := word (Lifecycle.all.map fun l => (l.name, l))

def NodeKind.encode (k : NodeKind) : Json := .str k.name

def NodeKind.decode : Decoder NodeKind := fun v => (text v).map NodeKind.ofName

def Node.encode (n : Node) : Json :=
  .ofMembers [("id", .str n.id), ("type", n.kind.encode), ("name", .ofOptionText n.name), ("data", n.data)]

def Node.decode : Decoder Node := fun v => do
  let f ← fields (plain ["id", "type", "name", "data"]) v
  return {
    id := ← f.required "id" text
    kind := ← f.required "type" NodeKind.decode
    name := ← f.orNone "name" text
    data := ← f.withDefault "data" value .null }

def Edge.encode (e : Edge) : Json :=
  .ofMembers [("id", .str e.id), ("source", .str e.source), ("target", .str e.target),
    ("handle", .ofOptionText e.handle), ("label", .ofOptionText e.label)]

def Edge.decode : Decoder Edge := fun v => do
  let f ← fields [("id", []), ("source", []), ("target", []), ("handle", ["sourceHandle"]), ("label", [])] v
  return {
    id := ← f.required "id" text
    source := ← f.required "source" text
    target := ← f.required "target" text
    handle := ← f.orNone "handle" text
    label := ← f.orNone "label" text }

def Definition.encode (d : Definition) : Json :=
  .ofMembers [("id", .str d.id), ("name", .str d.name), ("description", .ofOptionText d.description),
    ("status", d.status.encode), ("version", .ofNat d.version),
    ("subprocess_compatible", .bool d.subprocessCompatible),
    ("nodes", .ofList Node.encode d.nodes), ("edges", .ofList Edge.encode d.edges)]

def Definition.decode : Decoder Definition := fun v => do
  let f ← fields
    (plain ["id", "name", "description", "status", "version", "subprocess_compatible", "nodes", "edges"]) v
  return {
    id := ← f.required "id" text
    name := ← f.required "name" text
    description := ← f.orNone "description" text
    status := ← f.withDefault "status" Lifecycle.decode .draft
    version := ← f.withDefault "version" (natural 32) 1
    subprocessCompatible := ← f.withDefault "subprocess_compatible" bool false
    nodes := ← f.required "nodes" (list Node.decode)
    edges := ← f.withDefault "edges" (list Edge.decode) [] }

def Version.encode (v : Version) : Json :=
  .ofMembers [("workflow_id", .str v.workflowId), ("version", .str v.label), ("status", v.status.encode),
    ("created_at", v.createdAt.encode), ("definition", v.definition.encode)]

def Version.decode : Decoder Version := fun v => do
  let f ← fields (plain ["workflow_id", "version", "status", "created_at", "definition"]) v
  return {
    workflowId := ← f.required "workflow_id" text
    label := ← f.required "version" text
    status := ← f.required "status" Lifecycle.decode
    createdAt := ← f.required "created_at" Instant.decode
    definition := ← f.required "definition" Definition.decode }

end Workflows
