import Workflows.Toml.Table
import Workflows.Json.Parser
import Workflows.Time.Instant

/-!
# Reading TOML

A reader for TOML 1.0 documents.  A document that breaks a rule of the format has no value; dates are read as
texts.

* `Toml.scalar?`: numbers, booleans and dates
* `Toml.readValue?`: any value
* `Toml.read?`: a document
-/

namespace Workflows.Toml

/-! ### numbers and dates -/

/-- digits with single underscores between them -/
def groups? (isDigit : Char → Bool) : List Char → Option (List Char)
  | [] => none
  | [c] => if isDigit c then some [c] else none
  | c :: '_' :: r => if isDigit c then (groups? isDigit r).map (c :: ·) else none
  | c :: r => if isDigit c then (groups? isDigit r).map (c :: ·) else none

def isHexDigit (c : Char) : Bool := (Json.hexValue? c).isSome

/-- the value of digits in a base -/
def valueIn (base : Nat) (cs : List Char) : Nat :=
  cs.foldl (fun n c => n * base + (Json.hexValue? c).getD 0) 0

/-- decimal digits without a needless zero in front -/
def decimal? (cs : List Char) : Option (List Char) :=
  match groups? Char.isDigit cs with
  | some ('0' :: _ :: _) => none
  | r => r

def integer? (cs : List Char) : Option Int :=
  match cs with
  | '0' :: 'x' :: r => (groups? isHexDigit r).map fun ds => valueIn 16 ds
  | '0' :: 'o' :: r => (groups? (fun c => '0' ≤ c && c ≤ '7') r).map fun ds => valueIn 8 ds
  | '0' :: 'b' :: r => (groups? (fun c => c = '0' || c = '1') r).map fun ds => valueIn 2 ds
  | '-' :: r => (decimal? r).map fun ds => -(Number.digitsValue ds : Int)
  | '+' :: r => (decimal? r).map fun ds => (Number.digitsValue ds : Int)
  | r => (decimal? r).map fun ds => (Number.digitsValue ds : Int)

/-- the exponent of a number with its mark -/
def exponent? : List Char → Option (List Char)
  | [] => some []
  | c :: r =>
    if c = 'e' || c = 'E' then
      match r with
      | '-' :: r => (groups? Char.isDigit r).map ('e' :: '-' :: ·)
      | '+' :: r => (groups? Char.isDigit r).map ('e' :: ·)
      | r => (groups? Char.isDigit r).map ('e' :: ·)
    else none

def isExponentMark (c : Char) : Bool := c = 'e' || c = 'E'

/-- a number with a fraction or an exponent, as plain text -/
def floatText? (cs : List Char) : Option (List Char) :=
  let (sign, r) := match cs with
    | '-' :: r => (['-'], r)
    | '+' :: r => ([], r)
    | r => ([], r)
  let body := r.takeWhile (!isExponentMark ·)
  let tail := r.dropWhile (!isExponentMark ·)
  let whole := body.takeWhile (· ≠ '.')
  match decimal? whole, body.dropWhile (· ≠ '.'), exponent? tail with
  | some w, [], some e => if tail.isEmpty then none else some (sign ++ w ++ e)
  | some w, _ :: f, some e => (groups? Char.isDigit f).map fun f => sign ++ w ++ '.' :: f ++ e
  | _, _, _ => none

def float? (cs : List Char) : Option Float :=
  match cs with
  | ['i', 'n', 'f'] | ['+', 'i', 'n', 'f'] => some (1.0 / 0.0)
  | ['-', 'i', 'n', 'f'] => some (-1.0 / 0.0)
  | ['n', 'a', 'n'] | ['+', 'n', 'a', 'n'] | ['-', 'n', 'a', 'n'] => some (0.0 / 0.0)
  | _ => match (floatText? cs).bind fun t => Number.readDouble? (String.ofList t) with
    | some x => if x.isFinite then some x else none
    | none => none

/-- a time of day, and the rest -/
def time? (cs : List Char) : Option (List Char) := do
  let (hour, cs) ← Instant.readNumber? 2 2 cs
  let (minute, cs) ← Instant.readNumber? 2 2 (← Instant.readChar? ':' cs)
  let (second, cs) ← Instant.readNumber? 2 2 (← Instant.readChar? ':' cs)
  let (_, cs) ← Instant.readFraction? cs
  if hour < 24 && minute < 60 && second ≤ 60 then some cs else none

/-- an offset from UTC at the end of a date, or none -/
def zone? : List Char → Option Unit
  | [] => some ()
  | cs => match Instant.readOffset? (Instant.readChar? ':') cs with
    | some (offset, []) => if -86400 < offset && offset < 86400 then some () else none
    | _ => none

/-- a date, a time, or both -/
def date? (cs : List Char) : Option Unit :=
  match time? cs with
  | some [] => some ()
  | _ => do
    let (year, cs) ← Instant.readNumber? 4 4 cs
    let (month, cs) ← Instant.readNumber? 2 2 (← Instant.readChar? '-' cs)
    let (day, cs) ← Instant.readNumber? 2 2 (← Instant.readChar? '-' cs)
    if Calendar.isDate year month day then
      match cs with
      | [] => some ()
      | cs => zone? (← time? (← Instant.readMark? cs))
    else none

/-- the value of a word that is a boolean, a number or a date -/
def scalar? (cs : List Char) : Option Json :=
  if cs = ['t', 'r', 'u', 'e'] then some (.bool true)
  else if cs = ['f', 'a', 'l', 's', 'e'] then some (.bool false)
  else match integer? cs with
    | some n => if Number.fitsInt64 n then some (.int n) else none
    | none => match float? cs with
      | some x => some (.double x)
      | none => (date? cs).map fun _ => .str (String.ofList cs)

/-! ### blanks and comments -/

def isGap (c : Char) : Bool := c = ' ' || c = '\t'

def skipGap (cs : List Char) : List Char := cs.dropWhile isGap

/-- a character that may stand in a comment or a string -/
def isPrintable (c : Char) : Bool := c = '\t' || (32 ≤ c.toNat && c.toNat ≠ 127)

/-- the rest after a line break -/
def lineBreak? : List Char → Option (List Char)
  | '\n' :: r => some r
  | '\r' :: '\n' :: r => some r
  | _ => none

/-- the rest after a comment, if there is one -/
def skipComment (cs : List Char) : List Char :=
  match cs with
  | '#' :: r => r.dropWhile isPrintable
  | r => r

/-- the rest after blanks, a comment and the end of the line -/
def endOfLine? (cs : List Char) : Option (List Char) :=
  match skipComment (skipGap cs) with
  | [] => some []
  | r => lineBreak? r

/-- the rest after blanks, comments and line breaks; `fuel` bounds the lines -/
def skipLines : Nat → List Char → List Char
  | 0, cs => cs
  | fuel + 1, cs =>
    let r := skipComment (skipGap cs)
    match lineBreak? r with
    | some r => skipLines fuel r
    | none => r

/-! ### strings and keys -/

/-- a character given by hexadecimal digits -/
def unicode? (digits : List Char) : Option Char :=
  if digits.all isHexDigit then
    let n := valueIn 16 digits
    if n < 0xD800 || (0xE000 ≤ n && n < 0x110000) then some (Char.ofNat n) else none
  else none

/-- the character of an escape, and the rest -/
def escape? : List Char → Option (Char × List Char)
  | 'b' :: r => some (Char.ofNat 8, r)
  | 't' :: r => some ('\t', r)
  | 'n' :: r => some ('\n', r)
  | 'f' :: r => some (Char.ofNat 12, r)
  | 'r' :: r => some ('\r', r)
  | '"' :: r => some ('"', r)
  | '\\' :: r => some ('\\', r)
  | 'u' :: r => if r.length < 4 then none else (unicode? (r.take 4)).map (·, r.drop 4)
  | 'U' :: r => if r.length < 8 then none else (unicode? (r.take 8)).map (·, r.drop 8)
  | _ => none

/-- a string up to its closing quote; `escapes` tells the two kinds of strings apart -/
def readString? (quote : Char) (escapes : Bool) : Nat → List Char → Option (List Char × List Char)
  | 0, _ => none
  | _ + 1, [] => none
  | fuel + 1, c :: r =>
    if c = quote then some ([], r)
    else if escapes && c = '\\' then
      match escape? r with
      | some (e, r) => (readString? quote escapes fuel r).map fun p => (e :: p.1, p.2)
      | none => none
    else if isPrintable c then (readString? quote escapes fuel r).map fun p => (c :: p.1, p.2)
    else none

/-- the rest after blanks and line breaks that an escaped line end drops -/
def skipFolded (cs : List Char) : List Char :=
  cs.dropWhile fun c => c = ' ' || c = '\t' || c = '\n' || c = '\r'

/-- a string over several lines, up to its three closing quotes -/
def readLongString? (quote : Char) (escapes : Bool) : Nat → List Char → Option (List Char × List Char)
  | 0, _ => none
  | _ + 1, [] => none
  | fuel + 1, c :: r =>
    if c = quote then
      let run := (c :: r).takeWhile (· = quote)
      let rest := (c :: r).dropWhile (· = quote)
      if run.length ≥ 3 then
        let used := min run.length 5
        some (List.replicate (used - 3) quote, List.replicate (run.length - used) quote ++ rest)
      else (readLongString? quote escapes fuel rest).map fun p => (run ++ p.1, p.2)
    else if escapes && c = '\\' then
      match lineBreak? (skipGap r) with
      | some r => readLongString? quote escapes fuel (skipFolded r)
      | none => match escape? r with
        | some (e, r) => (readLongString? quote escapes fuel r).map fun p => (e :: p.1, p.2)
        | none => none
    else match lineBreak? (c :: r) with
      | some r => (readLongString? quote escapes fuel r).map fun p => ('\n' :: p.1, p.2)
      | none =>
        if isPrintable c then (readLongString? quote escapes fuel r).map fun p => (c :: p.1, p.2)
        else none

/-- a string after its first quote -/
def readText? (quote : Char) (cs : List Char) : Option (String × List Char) :=
  let escapes := quote = '"'
  let fuel := cs.length + 1
  let read := match cs with
    | a :: b :: r =>
      if a = quote && b = quote then
        readLongString? quote escapes fuel ((lineBreak? r).getD r)
      else readString? quote escapes fuel cs
    | _ => readString? quote escapes fuel cs
  read.map fun p => (String.ofList p.1, p.2)

def isBareChar (c : Char) : Bool := c.isAlphanum || c = '_' || c = '-'

/-- one part of a key -/
def readKeyPart? (cs : List Char) : Option (String × List Char) :=
  match cs with
  | '"' :: r => (readString? '"' true (r.length + 1) r).map fun p => (String.ofList p.1, p.2)
  | '\'' :: r => (readString? '\'' false (r.length + 1) r).map fun p => (String.ofList p.1, p.2)
  | cs =>
    let word := cs.takeWhile isBareChar
    if word.isEmpty then none else some (String.ofList word, cs.dropWhile isBareChar)

/-- a key: parts between points -/
def readKey? : Nat → List Char → Option (List String × List Char)
  | 0, _ => none
  | fuel + 1, cs =>
    match readKeyPart? cs with
    | none => none
    | some (part, r) => match skipGap r with
      | '.' :: r => (readKey? fuel (skipGap r)).map fun p => (part :: p.1, p.2)
      | r => some ([part], r)

/-! ### values -/

def isWordChar (c : Char) : Bool :=
  c.isAlphanum || c = '+' || c = '-' || c = '_' || c = '.' || c = ':'

/-- the word of a scalar; a blank between a date and a time belongs to it -/
def readWord (cs : List Char) : List Char × List Char :=
  let word := cs.takeWhile isWordChar
  let rest := cs.dropWhile isWordChar
  match rest with
  | ' ' :: d :: r =>
    if d.isDigit && word.length = 10 && (date? word).isSome then
      (word ++ ' ' :: (d :: r).takeWhile isWordChar, (d :: r).dropWhile isWordChar)
    else (word, rest)
  | _ => (word, rest)

mutual
/-- a value; `depth` more levels may be opened -/
def readValue? : Nat → Nat → List Char → Option (Json × List Char)
  | 0, _, _ => none
  | fuel + 1, depth, cs =>
    match cs with
    | '"' :: r => (readText? '"' r).map fun p => (.str p.1, p.2)
    | '\'' :: r => (readText? '\'' r).map fun p => (.str p.1, p.2)
    | '[' :: r => if depth = 0 then none else (readItems? fuel (depth - 1) r).map fun p => (.arr p.1, p.2)
    | '\x7b' :: r =>
      if depth = 0 then none
      else match skipGap r with
        | '\x7d' :: r => some (.obj [], r)
        | r => (readPairs? fuel (depth - 1) [] r).map fun p => (.obj (entriesToJson p.1), p.2)
    | cs =>
      let (word, r) := readWord cs
      (scalar? word).map (·, r)

/-- the items of an array up to its bracket -/
def readItems? : Nat → Nat → List Char → Option (List Json × List Char)
  | 0, _, _ => none
  | fuel + 1, depth, cs =>
    match skipLines cs.length cs with
    | ']' :: r => some ([], r)
    | r => match readValue? fuel depth r with
      | none => none
      | some (v, r) => match skipLines r.length r with
        | ',' :: r => (readItems? fuel depth r).map fun p => (v :: p.1, p.2)
        | ']' :: r => some ([v], r)
        | _ => none

/-- the pairs of an inline table up to its brace, at least one -/
def readPairs? : Nat → Nat → Entries → List Char → Option (Entries × List Char)
  | 0, _, _, _ => none
  | fuel + 1, depth, es, cs =>
    match readKey? (cs.length + 1) (skipGap cs) with
    | some (key, '=' :: r) => match readValue? fuel depth (skipGap r) with
      | none => none
      | some (v, r) => match es.addKey? [] key v with
        | none => none
        | some es => match skipGap r with
          | ',' :: r => readPairs? fuel depth es r
          | '\x7d' :: r => some (es, r)
          | _ => none
    | _ => none
end

/-! ### documents -/

/-- one line that is not empty: the document and the open table after it, and the rest -/
def readLine? (es : Entries) (path : List String) (cs : List Char) :
    Option (Entries × List String × List Char) :=
  match cs with
  | '[' :: '[' :: r => match readKey? (r.length + 1) (skipGap r) with
    | some (key, ']' :: ']' :: r) => (es.appendTable? key).map (·, key, r)
    | _ => none
  | '[' :: r => match readKey? (r.length + 1) (skipGap r) with
    | some (key, ']' :: r) => (es.openTable? key).map (·, key, r)
    | _ => none
  | cs => match readKey? (cs.length + 1) cs with
    | some (key, '=' :: r) => match readValue? (2 * r.length + 2) 80 (skipGap r) with
      | some (v, r) => (es.addKey? path key v).map (·, path, r)
      | none => none
    | _ => none

/-- all lines; `fuel` bounds their number -/
def readLines? : Nat → Entries → List String → List Char → Option Entries
  | 0, _, _, _ => none
  | fuel + 1, es, path, cs =>
    match skipLines cs.length cs with
    | [] => some es
    | r => match readLine? es path r with
      | none => none
      | some (es, path, r) => match endOfLine? r with
        | some r => readLines? fuel es path r
        | none => none

/-- the value of a document -/
def read? (s : String) : Option Json :=
  let cs := match s.toList with
    | c :: r => if c.toNat = 0xFEFF then r else c :: r
    | [] => []
  (readLines? (cs.length + 1) [] [] cs).map fun es => .obj (entriesToJson es)

end Workflows.Toml
