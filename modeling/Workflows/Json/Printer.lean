import Workflows.Json.Basic
import Workflows.Number.Layout

/-!
# JSON text

Compact text of a value: no blanks, members in the order of the object, doubles in `Number.valueLayout`, and
only quotes, backslashes and control characters escaped.
-/

namespace Workflows.Json

/-- a hexadecimal digit in small letters -/
def hexDigit (n : Nat) : Char := Char.ofNat (if n < 10 then 48 + n else 87 + n)

/-- one character of a string, escaped where needed -/
def escapeChar (c : Char) : List Char :=
  if c = '"' then ['\\', '"']
  else if c = '\\' then ['\\', '\\']
  else if c = '\n' then ['\\', 'n']
  else if c = '\r' then ['\\', 'r']
  else if c = '\t' then ['\\', 't']
  else if c.toNat = 8 then ['\\', 'b']
  else if c.toNat = 12 then ['\\', 'f']
  else if c.toNat < 32 then ['\\', 'u', '0', '0', hexDigit (c.toNat / 16), hexDigit (c.toNat % 16)]
  else [c]

/-- a string between quotes -/
def quote (s : String) : String :=
  "\"" ++ String.ofList (s.toList.flatMap escapeChar) ++ "\""

mutual
/-- the compact text of a value -/
def compact : Json → String
  | .null => "null"
  | .bool b => if b then "true" else "false"
  | .int n => toString n
  | .double x => if x.isFinite then Number.valueLayout.write x else "null"
  | .str s => quote s
  | .arr items => "[" ++ compactItems items ++ "]"
  | .obj members => "\x7b" ++ compactMembers members ++ "\x7d"

def compactItems : List Json → String
  | [] => ""
  | [v] => compact v
  | v :: w :: vs => compact v ++ "," ++ compactItems (w :: vs)

def compactMembers : List (String × Json) → String
  | [] => ""
  | [(k, v)] => quote k ++ ":" ++ compact v
  | (k, v) :: e :: es => quote k ++ ":" ++ compact v ++ "," ++ compactMembers (e :: es)
end

mutual
/-- the text of a value with two blanks of indentation a level; `margin` is the indentation of the line -/
def indented (margin : String) : Json → String
  | .arr [] => "[]"
  | .arr (v :: vs) => "[\n" ++ indentedItems (margin ++ "  ") (v :: vs) ++ "\n" ++ margin ++ "]"
  | .obj [] => "\x7b\x7d"
  | .obj (e :: es) => "\x7b\n" ++ indentedMembers (margin ++ "  ") (e :: es) ++ "\n" ++ margin ++ "\x7d"
  | v => compact v

def indentedItems (margin : String) : List Json → String
  | [] => ""
  | [v] => margin ++ indented margin v
  | v :: w :: vs => margin ++ indented margin v ++ ",\n" ++ indentedItems margin (w :: vs)

def indentedMembers (margin : String) : List (String × Json) → String
  | [] => ""
  | [(k, v)] => margin ++ quote k ++ ": " ++ indented margin v
  | (k, v) :: e :: es => margin ++ quote k ++ ": " ++ indented margin v ++ ",\n" ++ indentedMembers margin (e :: es)
end

/-- the text of a value over several lines -/
def pretty (v : Json) : String := indented "" v

/-- The text of a value inside other text: a string stands for itself, all else is written compactly. -/
def text : Json → String
  | .str s => s
  | v => compact v

/-- Whether a value counts as true: not null, not zero and not empty. -/
def truthy : Json → Bool
  | .null => false
  | .bool b => b
  | .int n => n != 0
  | .double x => x != 0.0
  | .str s => s != ""
  | .arr items => !items.isEmpty
  | .obj members => !members.isEmpty

end Workflows.Json
