import Workflows.Number.Read

/-!
# Arguments

The words of a command line are options and plain words.  An option has a long name and mostly a letter; its value
follows, or is attached with `=` or, after the letter, directly.  Letters can be joined.  After `--` every word is
plain.

* `OptionRule`, `Grammar`: which options and how many plain words there may be
* `Arguments.read`: the arguments in a list of words
* `Refusal`: why a line is not carried out
-/

namespace Workflows

/-- What an option takes. -/
inductive ValueKind where
  | flag
  | text
  /-- the name of a file, never empty -/
  | path
  /-- an unsigned 32-bit integer -/
  | count
  deriving DecidableEq, Repr

/-- An option. -/
structure OptionRule where
  name : String
  letter : Option Char
  kind : ValueKind
  repeatable : Bool := false
  deriving Repr

/-- What a list of words may hold. -/
structure Grammar where
  options : List OptionRule
  /-- how many plain words there are at most -/
  words : Nat
  /-- the first plain word ends the list, and is not counted -/
  endsAtWord : Bool := false

/-- Why a line is not carried out. -/
inductive Refusal where
  /-- it asks for help -/
  | help
  /-- it is not well formed -/
  | usage
  deriving DecidableEq, Repr

/-- What was found in a list of words. -/
structure Arguments where
  /-- options with their values, the last one first -/
  options : List (String × String) := []
  /-- plain words, the last one first -/
  words : List String := []
  deriving Repr

namespace Arguments

/-- the value of an option, the last one if there are several -/
def value? (a : Arguments) (name : String) : Option String :=
  (a.options.find? fun o => o.1 = name).map (·.2)

/-- the values of an option in their order -/
def values (a : Arguments) (name : String) : List String :=
  ((a.options.filter fun o => o.1 = name).map (·.2)).reverse

/-! ### reading -/

/-- the number in a text, if it has 32 bits -/
def readCount? (s : String) : Option Nat :=
  match Number.readInt64? s with
  | some n => if 0 ≤ n && n < 4294967296 then some n.toNat else none
  | none => none

/-- whether a text can be the value of an option -/
def fits (kind : ValueKind) (value : String) : Bool :=
  match kind with
  | .flag => false
  | .text => true
  | .path => value ≠ ""
  | .count => (readCount? value).isSome

/-- one more option -/
def addOption (a : Arguments) (o : OptionRule) (value : String) : Except Refusal Arguments :=
  if o.repeatable || (a.value? o.name).isNone then .ok { a with options := (o.name, value) :: a.options }
  else .error .usage

/-- one more option with a value -/
def addValue (a : Arguments) (o : OptionRule) (value : String) : Except Refusal Arguments :=
  if fits o.kind value then a.addOption o value else .error .usage

/-- one more plain word -/
def addWord (g : Grammar) (a : Arguments) (word : String) : Except Refusal Arguments :=
  if a.words.length < g.words && word ≠ "" then .ok { a with words := word :: a.words } else .error .usage

/-- The arguments after a word, and the option that still wants its value. -/
abbrev Step := Except Refusal (Arguments × Option OptionRule)

/-- an option by its long name, perhaps with a value attached -/
def readLong (g : Grammar) (a : Arguments) (name : String) (attached : Option String) : Step :=
  match g.options.find? (·.name = name), attached with
  | some o, some v => (a.addValue o v).map (·, none)
  | some o, none => if o.kind = .flag then (a.addOption o "").map (·, none) else .ok (a, some o)
  | none, some _ => .error .usage
  | none, none => if name = "help" then .error .help else .error .usage

/-- the text behind an equals sign at its start, if there is one -/
def behindEquals : List Char → List Char
  | '=' :: cs => cs
  | cs => cs

/-- joined letters; one that takes a value takes the rest of them -/
def readLetters (g : Grammar) (a : Arguments) : List Char → Step
  | [] => .ok (a, none)
  | c :: cs => match g.options.find? (·.letter = some c) with
    | some o =>
      if o.kind = .flag then
        match a.addOption o "" with
        | .ok a => readLetters g a cs
        | .error e => .error e
      else if cs.isEmpty then .ok (a, some o)
      else (a.addValue o (String.ofList (behindEquals cs))).map (·, none)
    | none => if c = 'h' then .error .help else .error .usage

/-- the name and the attached value of a long option -/
def splitLong (cs : List Char) : String × Option String :=
  let name := String.ofList (cs.takeWhile (· ≠ '='))
  match cs.dropWhile (· ≠ '=') with
  | [] => (name, none)
  | _ :: value => (name, some (String.ofList value))

/-- whether a word is an option or ends the options -/
def looksLikeOption (word : String) : Bool :=
  match word.toList with
  | '-' :: _ :: _ => true
  | _ => false

/-- an option as it is written -/
def readOption (g : Grammar) (a : Arguments) (word : String) : Step :=
  match word.toList with
  | '-' :: '-' :: cs =>
    let (name, attached) := splitLong cs
    readLong g a name attached
  | _ :: cs => readLetters g a cs
  | [] => .error .usage

/-- plain words only -/
def readWords (g : Grammar) (a : Arguments) : List String → Except Refusal Arguments
  | [] => .ok a
  | w :: ws => match a.addWord g w with
    | .ok a => readWords g a ws
    | .error e => .error e

/-- The arguments in a list of words while an option may want its value, and the words behind them. -/
def readFrom (g : Grammar) :
    Option OptionRule → Arguments → List String → Except Refusal (Arguments × List String)
  | none, a, [] => .ok (a, [])
  | some _, _, [] => .error .usage
  | some o, a, w :: ws =>
    if looksLikeOption w then .error .usage
    else match a.addValue o w with
      | .ok a => readFrom g none a ws
      | .error e => .error e
  | none, a, w :: ws =>
    if w = "--" then (readWords g a ws).map (·, [])
    else if looksLikeOption w then
      match readOption g a w with
      | .ok (a, wanting) => readFrom g wanting a ws
      | .error e => .error e
    else if g.endsAtWord then .ok (a, w :: ws)
    else match a.addWord g w with
      | .ok a => readFrom g none a ws
      | .error e => .error e

/-- the arguments in a list of words, and the words behind them -/
def read (g : Grammar) (words : List String) : Except Refusal (Arguments × List String) :=
  readFrom g none {} words

end Arguments
end Workflows
