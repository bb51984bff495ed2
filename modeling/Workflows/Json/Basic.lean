import Workflows.Dict

/-!
# JSON values

The dynamic values of workflow variables, node settings and records.  A number is a 64-bit integer (signed or
unsigned) or else a double; an object lists its members in key order.

* `Json`: the values
* `Json.same`: equality of values, where doubles compare as numbers
* `Json.double?`: a number as a double, the form in which numbers are ordered
-/

namespace Workflows

/-- A JSON value. -/
inductive Json where
  | null
  | bool (b : Bool)
  | int (n : Int)
  | double (x : Float)
  | str (s : String)
  | arr (items : List Json)
  | obj (members : List (String × Json))
  deriving Inhabited

/-- Variables by name. -/
abbrev Vars := Dict Json

namespace Json

/-! ### equality -/

mutual
/-- decides equality of two values -/
def decEq : (a b : Json) → Decidable (a = b)
  | .null, .null => isTrue rfl
  | .bool a, .bool b => if h : a = b then isTrue (h ▸ rfl) else isFalse fun e => h (by injection e)
  | .int a, .int b => if h : a = b then isTrue (h ▸ rfl) else isFalse fun e => h (by injection e)
  | .double a, .double b => if h : a = b then isTrue (h ▸ rfl) else isFalse fun e => h (by injection e)
  | .str a, .str b => if h : a = b then isTrue (h ▸ rfl) else isFalse fun e => h (by injection e)
  | .arr a, .arr b => match decEqItems a b with
    | isTrue h => isTrue (h ▸ rfl)
    | isFalse h => isFalse fun e => h (by injection e)
  | .obj a, .obj b => match decEqMembers a b with
    | isTrue h => isTrue (h ▸ rfl)
    | isFalse h => isFalse fun e => h (by injection e)
  | .null, .bool _ | .null, .int _ | .null, .double _ | .null, .str _ | .null, .arr _ | .null, .obj _
  | .bool _, .null | .bool _, .int _ | .bool _, .double _ | .bool _, .str _ | .bool _, .arr _ | .bool _, .obj _
  | .int _, .null | .int _, .bool _ | .int _, .double _ | .int _, .str _ | .int _, .arr _ | .int _, .obj _
  | .double _, .null | .double _, .bool _ | .double _, .int _ | .double _, .str _ | .double _, .arr _
  | .double _, .obj _
  | .str _, .null | .str _, .bool _ | .str _, .int _ | .str _, .double _ | .str _, .arr _ | .str _, .obj _
  | .arr _, .null | .arr _, .bool _ | .arr _, .int _ | .arr _, .double _ | .arr _, .str _ | .arr _, .obj _
  | .obj _, .null | .obj _, .bool _ | .obj _, .int _ | .obj _, .double _ | .obj _, .str _ | .obj _, .arr _ =>
    isFalse fun e => by injection e

def decEqItems : (a b : List Json) → Decidable (a = b)
  | [], [] => isTrue rfl
  | [], _ :: _ => isFalse fun e => by injection e
  | _ :: _, [] => isFalse fun e => by injection e
  | a :: as, b :: bs => match decEq a b, decEqItems as bs with
    | isTrue h, isTrue hs => isTrue (h ▸ hs ▸ rfl)
    | isFalse h, _ => isFalse fun e => h (by injection e)
    | _, isFalse h => isFalse fun e => h (by injection e)

def decEqMembers : (a b : List (String × Json)) → Decidable (a = b)
  | [], [] => isTrue rfl
  | [], _ :: _ => isFalse fun e => by injection e
  | _ :: _, [] => isFalse fun e => by injection e
  | (k, a) :: as, (l, b) :: bs => match decEq a b, decEqMembers as bs with
    | isTrue h, isTrue hs =>
      if hk : k = l then isTrue (hk ▸ h ▸ hs ▸ rfl) else isFalse fun e => hk (by simp_all)
    | isFalse h, _ => isFalse fun e => h (by simp_all)
    | _, isFalse h => isFalse fun e => h (by simp_all)
end

instance : DecidableEq Json := decEq

mutual
/-- Equal values.  Integers equal only integers, and doubles compare as numbers: `0.0` is the same as `-0.0`. -/
def same : Json → Json → Bool
  | .null, .null => true
  | .bool a, .bool b => a == b
  | .int a, .int b => a == b
  | .double a, .double b => a == b
  | .str a, .str b => a == b
  | .arr a, .arr b => sameItems a b
  | .obj a, .obj b => sameMembers a b
  | _, _ => false

def sameItems : List Json → List Json → Bool
  | [], [] => true
  | a :: as, b :: bs => same a b && sameItems as bs
  | _, _ => false

def sameMembers : List (String × Json) → List (String × Json) → Bool
  | [], [] => true
  | (k, a) :: as, (l, b) :: bs => k == l && same a b && sameMembers as bs
  | _, _ => false
end

/-! ### reading -/

def isNull : Json → Bool
  | .null => true
  | _ => false

/-- the text of a string -/
def str? : Json → Option String
  | .str s => some s
  | _ => none

/-- the value of a number as the nearest double -/
def double? : Json → Option Float
  | .int n => some (Float.ofInt n)
  | .double x => some x
  | _ => none

/-- the member of an object -/
def member? : Json → String → Option Json
  | .obj members, key => Dict.get? members key
  | _, _ => none

/-! ### building -/

/-- a double as a value; what is not finite has no value -/
def ofDouble (x : Float) : Json := if x.isFinite then .double x else .null

def ofNat (n : Nat) : Json := .int n

/-- nothing is written as null -/
def ofOption (encode : α → Json) : Option α → Json
  | some a => encode a
  | none => .null

/-- an object of members given in any order -/
def ofMembers (members : List (String × Json)) : Json := .obj (Dict.ofList members)

def ofStrings (ss : List String) : Json := .arr (ss.map .str)

end Json
end Workflows
