import Workflows.Text.Ranges
import Workflows.Text.CasePairs

/-!
# Small and capital letters

Full case mapping of texts without a locale.  Two rules go beyond single characters: a capital sigma
at the end of a word becomes the final small sigma, and some letters have several capitals.
-/

namespace Workflows.Text

/-- the image of a code point under the first run that holds it -/
def mapByRuns (runs : List (Nat × Nat × Nat × Int)) (n : Nat) : Nat :=
  match runs.find? fun r => r.1 ≤ n && n ≤ r.2.1 && (n - r.1) % r.2.2.1 == 0 with
  | some r => (Int.ofNat n + r.2.2.2).toNat
  | none => n

/-- the small letters of one character -/
def lowerChar (c : Char) : List Char :=
  if c.toNat < 128 then [c.toLower]
  else if c.toNat = 0x130 then ['i', Char.ofNat 0x307]
  else [Char.ofNat (mapByRuns lowerRuns c.toNat)]

/-- the capitals of one character -/
def upperChar (c : Char) : List Char :=
  if c.toNat < 128 then [c.toUpper]
  else match upperSequences.find? (·.1 == c.toNat) with
    | some e => e.2.map Char.ofNat
    | none => [Char.ofNat (mapByRuns upperRuns c.toNat)]

def isCased (c : Char) : Bool := casedRanges.has c.toNat

def isCaseIgnorable (c : Char) : Bool := caseIgnorableRanges.has c.toNat

/-- the nearest character that is not case ignorable is cased -/
def nextIsCased (cs : List Char) : Bool :=
  match cs.dropWhile isCaseIgnorable with
  | c :: _ => isCased c
  | [] => false

/-- `before` holds the characters already passed, the latest first -/
def lowerChars (before : List Char) : List Char → List Char
  | [] => []
  | c :: cs =>
    let here :=
      if c.toNat = 0x3A3 then
        [if nextIsCased before && !nextIsCased cs then Char.ofNat 0x3C2 else Char.ofNat 0x3C3]
      else lowerChar c
    here ++ lowerChars (c :: before) cs

/-- a text in small letters -/
def lowercase (s : String) : String := String.ofList (lowerChars [] s.toList)

/-- a text in capitals -/
def uppercase (s : String) : String := String.ofList (s.toList.flatMap upperChar)

end Workflows.Text
