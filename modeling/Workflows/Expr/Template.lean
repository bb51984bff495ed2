import Workflows.Json.Path
import Workflows.Text.Case
import Workflows.Expr.Eval

/-!
# Templates and conditions

Settings are texts with placeholders such as `${name}`.  A text is evaluated in three stages: placeholders of known
variables are filled in, a word for true or false is recognised, and otherwise the text is an expression.  A text
that is none of these stays text.

* `Template.fill`: placeholders filled in, in one pass
* `Evaluation`, `evaluateText`: a value, or the filled text
* `evaluate`, `condition?`: the value of a text and its truth
* `evaluateDeep`, `fillDeep`: the same inside lists and objects
-/

namespace Workflows

/-! ### placeholders -/

namespace Template

/-- the characters before the first closing brace, and the rest -/
def splitClose : List Char → Option (List Char × List Char)
  | [] => none
  | '\x7d' :: cs => some ([], cs)
  | c :: cs => (splitClose cs).map fun p => (c :: p.1, p.2)

theorem length_splitClose {cs name r : List Char} (h : splitClose cs = some (name, r)) :
    r.length < cs.length := by
  fun_induction splitClose cs generalizing name with
  | case1 => simp at h
  | case2 => simp_all
  | case3 c cs _ ih =>
    obtain ⟨⟨u, v⟩, hp, he⟩ := Option.map_eq_some_iff.1 h
    simp only [Prod.mk.injEq] at he
    have := ih (he.2 ▸ hp)
    simp only [List.length_cons]; omega

/-- what stands for a placeholder: the text of its variable, or itself if there is none -/
def filling (vars : Vars) (name : List Char) : List Char :=
  match vars.lookup? (Text.trim (String.ofList name)) with
  | some v => v.text.toList
  | none => '$' :: '\x7b' :: name ++ ['\x7d']

/-- the characters of a template, placeholders filled in; one that is not closed ends the search -/
def fillChars (vars : Vars) (cs : List Char) : List Char :=
  match cs with
  | [] => []
  | '$' :: '\x7b' :: r =>
    match h : splitClose r with
    | some (name, r') =>
      have : r'.length < r.length + 1 + 1 := by have := length_splitClose h; omega
      filling vars name ++ fillChars vars r'
    | none => '$' :: '\x7b' :: r
  | c :: r => c :: fillChars vars r
termination_by cs.length

/-- a template with its placeholders filled in -/
def fill (vars : Vars) (text : String) : String := String.ofList (fillChars vars text.toList)

end Template

/-! ### evaluation -/

/-- What a text evaluates to. -/
inductive Evaluation where
  | value (v : Json)
  /-- no expression; the text with its placeholders filled in -/
  | unevaluated (text : String)
  deriving DecidableEq

def Evaluation.toJson : Evaluation → Json
  | .value v => v
  | .unevaluated s => .str s

/-- the words for true and false, in small letters -/
def truthWord? (s : String) : Option Bool :=
  if s = "true" || s = "yes" || s = "1" then some true
  else if s = "false" || s = "no" || s = "0" then some false
  else none

/-- the value of a text without placeholders and without blanks at its ends -/
def evaluateFilled? (vars : Vars) (s : String) : Option Json :=
  match truthWord? (Text.lowercase s) with
  | some b => some (.bool b)
  | none => (Expr.read? s).bind (Expr.eval? vars)

/-- what a text evaluates to -/
def evaluateText (vars : Vars) (text : String) : Evaluation :=
  let filled := Template.fill vars text
  match evaluateFilled? vars (Text.trim filled) with
  | some v => .value v
  | none => .unevaluated filled

/-- the value of a text; one that is no expression is its own value -/
def evaluate (vars : Vars) (text : String) : Json := (evaluateText vars text).toJson

/-- the truth of a condition, unless it is no expression -/
def condition? (vars : Vars) (text : String) : Option Bool :=
  match evaluateText vars text with
  | .value v => some v.truthy
  | .unevaluated _ => none

/-! ### inside values -/

mutual
/-- a value with every text in it replaced -/
def mapTexts (f : String → Json) : Json → Json
  | .str s => f s
  | .arr items => .arr (mapTextsItems f items)
  | .obj members => .obj (mapTextsMembers f members)
  | v => v

def mapTextsItems (f : String → Json) : List Json → List Json
  | [] => []
  | v :: vs => mapTexts f v :: mapTextsItems f vs

def mapTextsMembers (f : String → Json) : List (String × Json) → List (String × Json)
  | [] => []
  | (k, v) :: es => (k, mapTexts f v) :: mapTextsMembers f es
end

/-- a value with every text in it evaluated -/
def evaluateDeep (vars : Vars) : Json → Json := mapTexts (evaluate vars)

/-- a value with the placeholders of every text in it filled in -/
def fillDeep (vars : Vars) : Json → Json := mapTexts fun s => .str (Template.fill vars s)

/-- the members of an object evaluated -/
def evaluateMembers (vars : Vars) (members : Vars) : Vars := Dict.mapValues (evaluateDeep vars) members

/-- the name in a lone placeholder -/
def lonePlaceholder? (s : String) : Option String :=
  match s.toList with
  | '$' :: '\x7b' :: r =>
    match r.reverse with
    | '\x7d' :: back =>
      let name := back.reverse
      if Text.occursInChars ['$', '\x7b'] name then none else some (Text.trim (String.ofList name))
    | _ => none
  | _ => none

/-- the value that a setting names: a lone placeholder or a variable is looked up, any other text evaluated -/
def resolve (vars : Vars) : Json → Json
  | .str s =>
    let t := Text.trim s
    match lonePlaceholder? t with
    | some name => (vars.lookup? name).getD .null
    | none => (vars.lookup? t).getD (evaluate vars t)
  | v => v

end Workflows
