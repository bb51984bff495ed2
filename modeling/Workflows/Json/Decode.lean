import Workflows.Json.Parser

/-!
# Decoding records

Strict readers from JSON values to domain types.  Nothing is converted: an integer is no double, a number no
text.  A record is an object of its fields, unknown members ignored, or an array of its fields in their declared
order.  A field given twice, also through its other names, is an error.

* `Decoder α`: a reader
* `Fields`: the fields found in a record, read by name
* `Fields.required`, `Fields.optional`, `Fields.withDefault`: what an absent field means
* `tagged`: records that name their case in a field
-/

namespace Workflows

/-- A reader of values, or nothing where the value is not of the type. -/
abbrev Decoder (α : Type) := Json → Option α

namespace Decode

/-! ### values -/

def text : Decoder String
  | .str s => some s
  | _ => none

def bool : Decoder Bool
  | .bool b => some b
  | _ => none

/-- an unsigned integer below `2 ^ bits` -/
def natural (bits : Nat) : Decoder Nat
  | .int n => if 0 ≤ n && n < (Nat.pow 2 bits : Nat) then some n.toNat else none
  | _ => none

/-- a signed 64-bit integer -/
def integer : Decoder Int
  | .int n => if Number.fitsInt64 n then some n else none
  | _ => none

/-- a number as a double -/
def double : Decoder Float := Json.double?

/-- any value -/
def value : Decoder Json := fun v => some v.canonical

/-- null, or a value of the type -/
def orNull (d : Decoder α) : Decoder (Option α)
  | .null => some none
  | v => (d v).map some

def list (d : Decoder α) : Decoder (List α)
  | .arr items => items.mapM d
  | _ => none

/-- values by name; the last of a repeated name counts -/
def dict (d : Decoder α) : Decoder (Dict α)
  | .obj members => (members.mapM fun e => (d e.2).map (e.1, ·)).map Dict.ofList
  | _ => none

/-- values by name, any values -/
def object : Decoder Vars := dict value

/-- one of several words -/
def word (words : List (String × α)) : Decoder α
  | .str s => Dict.get? words s
  | .obj [(s, .null)] => Dict.get? words s
  | _ => none

/-! ### records -/

/-- The fields found in a record. -/
structure Fields where
  /-- the record was given as an array of its fields -/
  positional : Bool
  found : List (String × Json)

/-- A field of a record: its name and the other names it may be given under. -/
abbrev FieldNames := List (String × List String)

/-- the members given for a field -/
def membersOf (names : String × List String) (members : List (String × Json)) : List Json :=
  (members.filter fun e => e.1 = names.1 || names.2.contains e.1).map (·.2)

/-- the fields found among members, at most one member for each -/
def findFields : FieldNames → List (String × Json) → Option (List (String × Json))
  | [], _ => some []
  | f :: fs, members =>
    match membersOf f members, findFields fs members with
    | [], some found => some found
    | [v], some found => some ((f.1, v) :: found)
    | _, _ => none

/-- the fields of a record -/
def fields (names : FieldNames) : Decoder Fields
  | .obj members => (findFields names members).map (⟨false, ·⟩)
  | .arr items =>
    if items.length ≤ names.length then some ⟨true, (names.map (·.1)).zip items⟩ else none
  | _ => none

/-- fields without other names -/
def plain (names : List String) : FieldNames := names.map fun n => (n, [])

namespace Fields

/-- a field that has to be given -/
def required (f : Fields) (name : String) (d : Decoder α) : Option α :=
  match Dict.get? f.found name with
  | some v => d v
  | none => none

/-- a field that an object may leave out or set to null -/
def optional (f : Fields) (name : String) (d : Decoder α) : Option (Option α) :=
  match Dict.get? f.found name with
  | some v => orNull d v
  | none => if f.positional then none else some none

/-- a field with a default -/
def withDefault (f : Fields) (name : String) (d : Decoder α) (default : α) : Option α :=
  match Dict.get? f.found name with
  | some v => d v
  | none => some default

/-- a field that may be left out or set to null -/
def orNone (f : Fields) (name : String) (d : Decoder α) : Option (Option α) :=
  f.withDefault name (orNull d) none

end Fields

/-! ### cases -/

/-- a record whose field `tag` names its case: the name and the record without the tag -/
def tagged (tag : String) : Json → Option (String × Json)
  | .obj members =>
    match membersOf (tag, []) members with
    | [.str s] => some (s, .obj (members.filter fun e => e.1 ≠ tag))
    | _ => none
  | .arr (.str s :: items) => some (s, .arr items)
  | _ => none

end Decode
end Workflows
