import Workflows.Json.Basic

/-!
# Tables of a TOML document

A document is built line by line.  A table can be opened by its own header once; tables that only lie on the path to
another one, or that a dotted key makes, follow stricter rules about who may add to them.

* `Entry`: a value, a table or an array of tables
* `addKey?`: one more key of a table
* `openTable?`, `appendTable?`: a table with its own header, and one more element of an array of tables
-/

namespace Workflows.Toml

/-- How a table came to be. -/
inductive Origin where
  /-- it has its own header, or is the document itself -/
  | header
  /-- it lies on the path of a header -/
  | path
  /-- it lies on the path of a dotted key -/
  | dotted
  deriving DecidableEq, Repr

/-- What a key of a table holds. -/
inductive Entry where
  | value (v : Json)
  | table (origin : Origin) (entries : List (String × Entry))
  /-- an array of tables, the latest first -/
  | tables (items : List (List (String × Entry)))

/-- The entries of a table, in the order in which they were made. -/
abbrev Entries := List (String × Entry)

namespace Entries

def find? : Entries → String → Option Entry
  | [], _ => none
  | (k, e) :: es, key => if key = k then some e else find? es key

/-- the entries with one of them replaced, or added at the end -/
def put : Entries → String → Entry → Entries
  | [], key, e => [(key, e)]
  | (k, e) :: es, key, e' => if key = k then (key, e') :: es else (k, e) :: put es key e'

/-- a change of the table at the end of a path; `dotted` tells the path of a key from the path of a header -/
def change? (dotted : Bool) (f : Origin → Entries → Option Entries) :
    List String → Origin → Entries → Option Entries
  | [], origin, es => f origin es
  | k :: ks, _, es =>
    match es.find? k with
    | none =>
      let origin := if dotted then Origin.dotted else Origin.path
      (change? dotted f ks origin []).map fun inner => es.put k (.table origin inner)
    | some (.value _) => none
    | some (.table origin inner) =>
      if dotted && origin = .header then none
      else (change? dotted f ks origin inner).map fun inner => es.put k (.table origin inner)
    | some (.tables []) => none
    | some (.tables (last :: earlier)) =>
      (change? dotted f ks .header last).map fun inner => es.put k (.tables (inner :: earlier))

/-- one more key of the table at `path`, given by the dotted key `keys` -/
def addKey? (es : Entries) (path : List String) (keys : List String) (v : Json) : Option Entries :=
  match keys.reverse with
  | [] => none
  | key :: back =>
    change? false (fun origin table =>
      change? true (fun origin inner =>
        -- a dotted key adds only to tables that dotted keys have made
        if (origin = .dotted) = back.isEmpty then none
        else if (inner.find? key).isSome then none
        else some (inner.put key (.value v)))
        back.reverse origin table)
      path .header es

/-- the table at `path` opened by its own header -/
def openTable? (es : Entries) (path : List String) : Option Entries :=
  match path.reverse with
  | [] => none
  | key :: back =>
    change? false (fun _ table =>
      match table.find? key with
      | none => some (table.put key (.table .header []))
      | some (.table .path inner) => some (table.put key (.table .header inner))
      | some _ => none)
      back.reverse .header es

/-- one more element of the array of tables at `path` -/
def appendTable? (es : Entries) (path : List String) : Option Entries :=
  match path.reverse with
  | [] => none
  | key :: back =>
    change? false (fun _ table =>
      match table.find? key with
      | none => some (table.put key (.tables [[]]))
      | some (.tables items) => some (table.put key (.tables ([] :: items)))
      | some _ => none)
      back.reverse .header es

end Entries

mutual
/-- an entry as a value -/
def Entry.toJson : Entry → Json
  | .value v => v
  | .table _ es => .obj (entriesToJson es)
  | .tables items => .arr (tablesToJson items).reverse

def entriesToJson : List (String × Entry) → List (String × Json)
  | [] => []
  | (k, e) :: es => (k, e.toJson) :: entriesToJson es

def tablesToJson : List (List (String × Entry)) → List Json
  | [] => []
  | es :: items => .obj (entriesToJson es) :: tablesToJson items
end

end Workflows.Toml
