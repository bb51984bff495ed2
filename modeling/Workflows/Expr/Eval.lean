import Workflows.Json.Printer
import Workflows.Expr.Syntax

/-!
# Meaning of expressions

The value of an expression under some variables, or nothing where an operand has the wrong type, a name is unknown
or a number leaves its range.

* `Expr.eval?`: the value
* `arithmetic?`: integers stay integers while 64 bits hold the result, all else is a double
* `Json.order?`: numbers are ordered as doubles and texts by code point; other pairs have no order
-/

namespace Workflows

/-- the order of two numbers or two texts -/
def Json.order? : Json → Json → Option Ordering
  | .str a, .str b => some (compare a b)
  | a, b => match a.double?, b.double? with
    | some x, some y =>
      if x < y then some .lt else if x == y then some .eq else some .gt
    | _, _ => none

namespace Expr

/-- a finite double as a value -/
def finite? (x : Float) : Option Json := if x.isFinite then some (.double x) else none

/-- The remainder with the sign of the divisor, from the one with the sign of the dividend; none where the quotient is
no signed 64-bit integer.  The divisor is added as 64-bit integers are. -/
def wordRemainder? (a b : Int) : Option Int :=
  if a = Number.minInt64 && b = -1 then none
  else
    let r := a.tmod b
    some (if r ≠ 0 && (r < 0) != (b < 0) then Number.wrapInt64 (r + b) else r)

/-- the exact result of an operation on signed 64-bit integers, where it is one too; `/` has none -/
def exactResult? (op : Arith) (a b : Int) : Option Int :=
  let fits (n : Int) := if Number.fitsInt64 n then some n else none
  match op with
  | .add => fits (a + b)
  | .sub => fits (a - b)
  | .mul => fits (a * b)
  | .div => none
  | .rem => wordRemainder? a b

/-- an operation on doubles -/
def approximate? (op : Arith) (x y : Float) : Option Json :=
  match op with
  | .add => finite? (x + y)
  | .sub => finite? (x - y)
  | .mul => finite? (x * y)
  | .div => if y == 0.0 then none else finite? (x / y)
  | .rem => if y == 0.0 then none else finite? (Double.floorRemainder x y)

/-- a number that is a signed 64-bit integer -/
def int64? : Json → Option Int
  | .int n => if Number.fitsInt64 n then some n else none
  | _ => none

/-- an operation on two numbers, or the concatenation of two texts -/
def arithmetic? (op : Arith) (a b : Json) : Option Json :=
  match op, a, b with
  | .add, .str s, .str t => some (.str (s ++ t))
  | op, a, b => match a.double?, b.double? with
    | some x, some y => match int64? a, int64? b with
      | some m, some n =>
        if op = .rem && n = 0 then none
        else match exactResult? op m n with
          | some r => some (.int r)
          | none => approximate? op x y
      | _, _ => approximate? op x y
    | _, _ => none

/-- whether a comparison holds; equality is defined for all values, the order only where `Json.order?` is -/
def compare? (op : Cmp) (a b : Json) : Option Bool :=
  match op with
  | .eq => some (match a.order? b with
    | some o => o == .eq
    | none => a.same b)
  | .ne => some (match a.order? b with
    | some o => o != .eq
    | none => !a.same b)
  | .gt => (a.order? b).map (· == .gt)
  | .lt => (a.order? b).map (· == .lt)
  | .ge => (a.order? b).map (· != .lt)
  | .le => (a.order? b).map (· != .gt)

/-- a number with its sign changed -/
def negate? : Json → Option Json
  | .int n =>
    if Number.fitsInt64 n then (if n = Number.minInt64 then none else some (.int (-n)))
    else finite? (-(Float.ofInt n))
  | .double x => finite? (-x)
  | _ => none

mutual
/-- the value of an expression -/
def eval? (vars : Vars) : Expr → Option Json
  | .lit v => some v
  | .var name => Dict.get? vars name
  | .not e => (eval? vars e).map fun v => .bool (!v.truthy)
  | .neg e => (eval? vars e).bind negate?
  | .and a b => match eval? vars a with
    | some v => if v.truthy then eval? vars b else some v
    | none => none
  | .or a b => match eval? vars a with
    | some v => if v.truthy then some v else eval? vars b
    | none => none
  | .arith op a b => match eval? vars a, eval? vars b with
    | some v, some w => arithmetic? op v w
    | _, _ => none
  | .chain first links => match eval? vars first with
    | some v => evalLinks? vars v links
    | none => none

/-- the rest of a chain whose last value is `left`; after a link that fails nothing more is evaluated -/
def evalLinks? (vars : Vars) (left : Json) : List (Cmp × Expr) → Option Json
  | [] => some (.bool true)
  | (op, e) :: links => match eval? vars e with
    | some right => match compare? op left right with
      | some true => evalLinks? vars right links
      | some false => some (.bool false)
      | none => none
    | none => none
end

end Expr
end Workflows
