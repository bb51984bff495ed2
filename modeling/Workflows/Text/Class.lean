import Workflows.Text.Ranges

/-!
# Character classes and trimming

Blank, alphabetic and numeric characters by their Unicode properties, trimming, and search inside a text.
Texts are taken apart as lists of characters, so that later statements speak about lists.

* `isBlank`, `isAlphabetic`, `isNumeric`, `isAlphanumeric`: the classes
* `trim`: a text without the blanks at its two ends
* `occursIn`: one text inside another
* `parts`, `words`: the pieces of a text between separators
-/

namespace Workflows.Text

/-- property White_Space -/
def isBlank (c : Char) : Bool :=
  let n := c.toNat
  n == 32 || (9 ≤ n && n ≤ 13) || n == 0x85 || n == 0xA0 || n == 0x1680 || (0x2000 ≤ n && n ≤ 0x200A) ||
    n == 0x2028 || n == 0x2029 || n == 0x202F || n == 0x205F || n == 0x3000

/-- property Alphabetic -/
def isAlphabetic (c : Char) : Bool :=
  if c.toNat < 128 then c.isAlpha else alphabeticRanges.has c.toNat

/-- a decimal, letter or other number -/
def isNumeric (c : Char) : Bool :=
  if c.toNat < 128 then c.isDigit else numericRanges.has c.toNat

def isAlphanumeric (c : Char) : Bool := isAlphabetic c || isNumeric c

/-! ### trimming -/

/-- a list of characters without the blanks at its end -/
def dropBlankEnd (cs : List Char) : List Char := (cs.reverse.dropWhile isBlank).reverse

def trimChars (cs : List Char) : List Char := dropBlankEnd (cs.dropWhile isBlank)

/-- a text without the blanks at both ends -/
def trim (s : String) : String := String.ofList (trimChars s.toList)

/-! ### search -/

/-- `needle` stands somewhere in the list -/
def occursInChars (needle : List Char) : List Char → Bool
  | [] => needle.isEmpty
  | c :: cs => needle.isPrefixOf (c :: cs) || occursInChars needle cs

/-- `needle` stands somewhere in `s` -/
def occursIn (needle s : String) : Bool := occursInChars needle.toList s.toList

/-- the parts of a list between the elements that satisfy `sep`; one more part than separators -/
def partsBy (sep : Char → Bool) : List Char → List (List Char)
  | [] => [[]]
  | c :: cs =>
    if sep c then [] :: partsBy sep cs
    else match partsBy sep cs with
      | [] => [[c]]
      | p :: ps => (c :: p) :: ps

/-- the parts of a text between separators; one more part than separators -/
def parts (sep : Char → Bool) (s : String) : List String :=
  (partsBy sep s.toList).map String.ofList

/-- the words of a text: its parts that are not empty -/
def words (sep : Char → Bool) (s : String) : List String :=
  (parts sep s).filter (· ≠ "")

end Workflows.Text
