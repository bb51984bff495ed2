import Workflows.Json.Basic
import Workflows.Expr.Token

/-!
# Syntax of expressions

The tree of an expression and its reader.  From weak to strong, the operators are `or`, `and`, `not`, the
comparisons, `+ -`, `* / %` and the signs.  Binary operators group to the left, and a run of comparisons forms one
chain.  Every open `not`, minus sign and parenthesis takes one of `maxOpen` places, which bounds the depth.

* `Expr`: the tree
* `Expr.parse?`: the tree of a list of tokens
* `Expr.read?`: the tree of a text
-/

namespace Workflows

/-- An expression. -/
inductive Expr where
  | lit (v : Json)
  | var (name : String)
  | not (e : Expr)
  | neg (e : Expr)
  | and (a b : Expr)
  | or (a b : Expr)
  | arith (op : Arith) (a b : Expr)
  /-- `a < b <= c` holds where `a < b` and `b <= c` hold -/
  | chain (first : Expr) (links : List (Cmp × Expr))

namespace Expr

/-- how many `not`, minus signs and parentheses may be open at a time -/
def maxOpen : Nat := 64

/-- the tree of a literal; a literal too large for a double is none -/
def literal? : Token → Option Expr
  | .int n => some (.lit (.int n))
  | .double x => if x.isFinite then some (.lit (.double x)) else none
  | .text s => some (.lit (.str s))
  | .yes => some (.lit (.bool true))
  | .no => some (.lit (.bool false))
  | .null => some (.lit .null)
  | _ => none

/-- `+` and `-` between two operands -/
def isSum : Arith → Bool
  | .add | .sub => true
  | _ => false

mutual
/-- an expression; each reader returns the tree and the tokens after it, `room` counts the free places -/
def parseOr : Nat → Nat → List Token → Option (Expr × List Token)
  | 0, _, _ => none
  | fuel + 1, room, ts =>
    match parseAnd fuel room ts with
    | some (a, r) => parseOrRest fuel room a r
    | none => none

def parseOrRest : Nat → Nat → Expr → List Token → Option (Expr × List Token)
  | 0, _, _, _ => none
  | fuel + 1, room, a, .or :: ts =>
    match parseAnd fuel room ts with
    | some (b, r) => parseOrRest fuel room (.or a b) r
    | none => none
  | _ + 1, _, a, ts => some (a, ts)

def parseAnd : Nat → Nat → List Token → Option (Expr × List Token)
  | 0, _, _ => none
  | fuel + 1, room, ts =>
    match parseNot fuel room ts with
    | some (a, r) => parseAndRest fuel room a r
    | none => none

def parseAndRest : Nat → Nat → Expr → List Token → Option (Expr × List Token)
  | 0, _, _, _ => none
  | fuel + 1, room, a, .and :: ts =>
    match parseNot fuel room ts with
    | some (b, r) => parseAndRest fuel room (.and a b) r
    | none => none
  | _ + 1, _, a, ts => some (a, ts)

def parseNot : Nat → Nat → List Token → Option (Expr × List Token)
  | 0, _, _ => none
  | fuel + 1, room, .not :: ts =>
    match room with
    | 0 => none
    | room + 1 => (parseNot fuel room ts).map fun p => (.not p.1, p.2)
  | fuel + 1, room, ts => parseChain fuel room ts

def parseChain : Nat → Nat → List Token → Option (Expr × List Token)
  | 0, _, _ => none
  | fuel + 1, room, ts =>
    match parseSum fuel room ts with
    | some (a, r) =>
      match parseLinks fuel room r with
      | some ([], r) => some (a, r)
      | some (link :: links, r) => some (.chain a (link :: links), r)
      | none => none
    | none => none

def parseLinks : Nat → Nat → List Token → Option (List (Cmp × Expr) × List Token)
  | 0, _, _ => none
  | fuel + 1, room, .cmp op :: ts =>
    match parseSum fuel room ts with
    | some (b, r) => (parseLinks fuel room r).map fun p => ((op, b) :: p.1, p.2)
    | none => none
  | _ + 1, _, ts => some ([], ts)

def parseSum : Nat → Nat → List Token → Option (Expr × List Token)
  | 0, _, _ => none
  | fuel + 1, room, ts =>
    match parseProduct fuel room ts with
    | some (a, r) => parseSumRest fuel room a r
    | none => none

def parseSumRest : Nat → Nat → Expr → List Token → Option (Expr × List Token)
  | 0, _, _, _ => none
  | fuel + 1, room, a, .arith op :: ts =>
    if isSum op then
      match parseProduct fuel room ts with
      | some (b, r) => parseSumRest fuel room (.arith op a b) r
      | none => none
    else some (a, .arith op :: ts)
  | _ + 1, _, a, ts => some (a, ts)

def parseProduct : Nat → Nat → List Token → Option (Expr × List Token)
  | 0, _, _ => none
  | fuel + 1, room, ts =>
    match parseSign fuel room ts with
    | some (a, r) => parseProductRest fuel room a r
    | none => none

def parseProductRest : Nat → Nat → Expr → List Token → Option (Expr × List Token)
  | 0, _, _, _ => none
  | fuel + 1, room, a, .arith op :: ts =>
    if isSum op then some (a, .arith op :: ts)
    else
      match parseSign fuel room ts with
      | some (b, r) => parseProductRest fuel room (.arith op a b) r
      | none => none
  | _ + 1, _, a, ts => some (a, ts)

def parseSign : Nat → Nat → List Token → Option (Expr × List Token)
  | 0, _, _ => none
  | fuel + 1, room, .arith .sub :: ts =>
    match room with
    | 0 => none
    | room + 1 => (parseSign fuel room ts).map fun p => (.neg p.1, p.2)
  | fuel + 1, room, .arith .add :: ts => parseSign fuel room ts
  | fuel + 1, room, ts => parseOperand fuel room ts

def parseOperand : Nat → Nat → List Token → Option (Expr × List Token)
  | 0, _, _ => none
  | _ + 1, _, [] => none
  | _ + 1, _, .name _ :: .lparen :: _ => none
  | _ + 1, _, .name s :: ts => some (.var s, ts)
  | fuel + 1, room, .lparen :: ts =>
    match room with
    | 0 => none
    | room + 1 =>
      match parseOr fuel room ts with
      | some (e, .rparen :: r) => some (e, r)
      | _ => none
  | _ + 1, _, t :: ts => (literal? t).map (·, ts)
end

/-- enough steps for a list of tokens -/
def fuelFor (ts : List Token) : Nat := 16 * (ts.length + 1)

/-- the tree of a list of tokens that is one expression -/
def parse? (ts : List Token) : Option Expr :=
  match parseOr (fuelFor ts) maxOpen ts with
  | some (e, []) => some e
  | _ => none

/-- the tree of a text -/
def read? (s : String) : Option Expr := (Token.tokens? s).bind parse?

end Expr
end Workflows
