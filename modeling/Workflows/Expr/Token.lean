import Workflows.Number.Read
import Workflows.Text.Class

/-!
# Tokens of expressions

Conditions and assignments are written in a small language of literals, names, `and`, `or`, `not`, comparisons
and arithmetic.  This module cuts the text of an expression into tokens.

* `Token`: the tokens, with `Arith` and `Cmp` for the operators
* `lexToken`: the first token of a text that starts with no blank, and the rest
* `tokens?`: all tokens of a text, at most `maxTokens`
-/

namespace Workflows

/-- An arithmetic operator. -/
inductive Arith where
  | add | sub | mul | div | rem
  deriving DecidableEq, Repr

/-- A comparison. -/
inductive Cmp where
  | eq | ne | gt | lt | ge | le
  deriving DecidableEq, Repr

/-- A token. -/
inductive Token where
  | int (n : Int)
  | double (x : Float)
  | text (s : String)
  | name (s : String)
  | and | or | not
  | yes | no | null
  | arith (op : Arith)
  | cmp (op : Cmp)
  | lparen | rparen
  deriving DecidableEq

namespace Token
open Text

/-- the most tokens of an expression, which bounds the size of its tree -/
def maxTokens : Nat := 512

/-! ### literals and words -/

/-- the character that an escape stands for -/
def unescape (c : Char) : Char :=
  if c = 'n' then '\n' else if c = 't' then '\t' else c

/-- the characters of a string up to its closing quote, and the rest -/
def lexString (quote : Char) : List Char → Option (List Char × List Char)
  | [] => none
  | ['\\'] => none
  | '\\' :: c :: cs => (lexString quote cs).map fun p => (unescape c :: p.1, p.2)
  | c :: cs => if c = quote then some ([], cs) else (lexString quote cs).map fun p => (c :: p.1, p.2)

/-- an integer literal, or a double where 64 bits do not hold it -/
def intLiteral (digits : List Char) : Token :=
  let n := Number.digitsValue digits
  if Number.fitsInt64 n then .int n else .double (Number.scaled n 0)

/-- a number at the start of a text; a point belongs to it only before a digit -/
def lexNumber (cs : List Char) : Token × List Char :=
  let whole := cs.takeWhile Char.isDigit
  match cs.dropWhile Char.isDigit with
  | '.' :: d :: r =>
    if d.isDigit then
      let fraction := (d :: r).takeWhile Char.isDigit
      (.double (Number.scaled (Number.digitsValue (whole ++ fraction)) (-(fraction.length : Int))),
        (d :: r).dropWhile Char.isDigit)
    else (intLiteral whole, '.' :: d :: r)
  | r => (intLiteral whole, r)

def isWordStart (c : Char) : Bool := isAlphabetic c || c = '_'

def isWordChar (c : Char) : Bool := isAlphanumeric c || c = '_'

/-- a keyword, or else a name -/
def ofWord (s : String) : Token :=
  if s = "and" then .and
  else if s = "or" then .or
  else if s = "not" then .not
  else if s = "true" || s = "True" then .yes
  else if s = "false" || s = "False" then .no
  else if s = "null" || s = "None" then .null
  else .name s

/-- the comparison that starts with `c`, given whether `=` follows -/
def comparison? (c : Char) (equals : Bool) : Option Cmp :=
  match c, equals with
  | '=', true => some .eq
  | '!', true => some .ne
  | '<', true => some .le
  | '>', true => some .ge
  | '<', false => some .lt
  | '>', false => some .gt
  | _, _ => none

/-- the token of a single character -/
def single? (c : Char) : Option Token :=
  match c with
  | '(' => some .lparen
  | ')' => some .rparen
  | '+' => some (.arith .add)
  | '-' => some (.arith .sub)
  | '*' => some (.arith .mul)
  | '/' => some (.arith .div)
  | '%' => some (.arith .rem)
  | _ => none

/-! ### one token -/

/-- the first token of `c :: cs`, where `c` is not blank, and the rest -/
def lexToken (c : Char) (cs : List Char) : Option (Token × List Char) :=
  match single? c with
  | some t => some (t, cs)
  | none =>
    if c = '=' || c = '!' || c = '<' || c = '>' then
      match cs with
      | '=' :: r => (comparison? c true).map fun op => (.cmp op, r)
      | r => (comparison? c false).map fun op => (.cmp op, r)
    else if c = '\'' || c = '"' then
      (lexString c cs).map fun p => (.text (String.ofList p.1), p.2)
    else if c.isDigit then some (lexNumber (c :: cs))
    else if isWordStart c then
      some (ofWord (String.ofList (c :: cs.takeWhile isWordChar)), cs.dropWhile isWordChar)
    else none

theorem length_dropWhile_le (p : Char → Bool) (cs : List Char) : (cs.dropWhile p).length ≤ cs.length :=
  (List.dropWhile_sublist p).length_le

theorem length_lexString {quote : Char} {cs : List Char} {s r : List Char}
    (h : lexString quote cs = some (s, r)) : r.length ≤ cs.length := by
  fun_induction lexString quote cs generalizing s with
  | case1 => simp at h
  | case2 => simp at h
  | case3 c cs ih =>
    obtain ⟨⟨u, v⟩, hp, he⟩ := Option.map_eq_some_iff.1 h
    simp only [Prod.mk.injEq] at he
    have := ih (he.2 ▸ hp)
    simp only [List.length_cons]; omega
  | case4 cs => simp_all
  | case5 c cs _ _ _ ih =>
    obtain ⟨⟨u, v⟩, hp, he⟩ := Option.map_eq_some_iff.1 h
    simp only [Prod.mk.injEq] at he
    have := ih (he.2 ▸ hp)
    simp only [List.length_cons]; omega

theorem length_lexNumber {c : Char} {cs : List Char} (h : c.isDigit = true) :
    (lexNumber (c :: cs)).2.length ≤ cs.length := by
  have hd : (c :: cs).dropWhile Char.isDigit = cs.dropWhile Char.isDigit := by
    simp [h]
  have hl := length_dropWhile_le Char.isDigit cs
  unfold lexNumber
  rw [hd]
  split
  · next d r he =>
    have hr := length_dropWhile_le Char.isDigit (d :: r)
    rw [he] at hl
    simp only [List.length_cons] at hl hr
    split
    · simp only; omega
    · simp only [List.length_cons]; omega
  · next he => exact hl

/-- a token leaves no more than what followed its first character -/
theorem length_lexToken {c : Char} {cs : List Char} {t : Token} {r : List Char}
    (h : lexToken c cs = some (t, r)) : r.length ≤ cs.length := by
  unfold lexToken at h
  split at h
  · simp_all
  · split at h
    · split at h
      · obtain ⟨op, _, he⟩ := Option.map_eq_some_iff.1 h
        simp only [Prod.mk.injEq] at he
        simp [← he.2]
      · obtain ⟨op, _, he⟩ := Option.map_eq_some_iff.1 h
        simp only [Prod.mk.injEq] at he
        simp [← he.2]
    · split at h
      · obtain ⟨p, hp, he⟩ := Option.map_eq_some_iff.1 h
        simp only [Prod.mk.injEq] at he
        exact he.2 ▸ length_lexString (s := p.1) hp
      · split at h
        · next hd =>
          have : (lexNumber (c :: cs)).2.length ≤ cs.length := length_lexNumber hd
          simp only [Option.some.injEq] at h
          rw [h] at this
          exact this
        · split at h
          · simp only [Option.some.injEq, Prod.mk.injEq] at h
            exact h.2 ▸ length_dropWhile_le isWordChar cs
          · simp at h

/-! ### all tokens -/

/-- the tokens of a text, however many -/
def lexAll (cs : List Char) : Option (List Token) :=
  match cs with
  | [] => some []
  | c :: cs =>
    if isBlank c then lexAll cs
    else match h : lexToken c cs with
      | none => none
      | some (t, r) =>
        have : r.length < cs.length + 1 := Nat.lt_succ_of_le (length_lexToken h)
        (lexAll r).map (t :: ·)
termination_by cs.length

@[simp] theorem lexAll_nil : lexAll [] = some [] := by rw [lexAll]

theorem lexAll_blank {c : Char} (h : isBlank c = true) (cs : List Char) : lexAll (c :: cs) = lexAll cs := by
  rw [lexAll, if_pos h]

theorem lexAll_cons {c : Char} (h : isBlank c = false) (cs : List Char) :
    lexAll (c :: cs) = (lexToken c cs).bind fun p => (lexAll p.2).map (p.1 :: ·) := by
  rw [lexAll, if_neg (by simp [h])]
  split
  · next hnone => rw [hnone]; rfl
  · next hsome => simp only [hsome]; rfl

/-- the tokens of a text, at most `maxTokens` -/
def tokens? (s : String) : Option (List Token) :=
  match lexAll s.toList with
  | some ts => if ts.length ≤ maxTokens then some ts else none
  | none => none

end Token
end Workflows
