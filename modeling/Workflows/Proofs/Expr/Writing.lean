import Workflows.Proofs.Expr.Words
import Workflows.Proofs.Time.Text

/-!
# Tokens as text

* `Hand`       the choices in writing a token: the quote around a text, and how `true`, `false` and `null` are spelled
* `write`      the characters of a token
* `Plain`      tokens that are written: no double, integers that a literal holds, names that are no keywords
* `rendering`  tokens with a space between each two

Main statement: tokens are read back from their rendering, unless they are too many (`tokens?_rendering`).
-/

namespace Workflows

/-- the character of an operator -/
def Arith.symbol : Arith → Char
  | .add => '+' | .sub => '-' | .mul => '*' | .div => '/' | .rem => '%'

/-- the characters of a comparison -/
def Cmp.symbol : Cmp → List Char
  | .eq => ['=', '='] | .ne => ['!', '='] | .gt => ['>'] | .lt => ['<'] | .ge => ['>', '='] | .le => ['<', '=']

namespace Token
open Text

/-- how tokens with more than one spelling are written -/
structure Hand where
  quote : Char
  quote_eq : quote = '\'' ∨ quote = '"'
  /-- `True`, `False` and `None` in place of `true`, `false` and `null` -/
  capitals : Bool

/-- characters between quotes, with a backslash before each quote and each backslash -/
def escaped (quote : Char) (cs : List Char) : List Char :=
  cs.flatMap fun c => if c = quote ∨ c = '\\' then ['\\', c] else [c]

/-- the characters of a token; a double has no spelling here -/
def write (h : Hand) : Token → List Char
  | .int n => (toString n).toList
  | .double _ => []
  | .text s => h.quote :: (escaped h.quote s.toList ++ [h.quote])
  | .name s => s.toList
  | .and => "and".toList
  | .or => "or".toList
  | .not => "not".toList
  | .yes => (if h.capitals then "True" else "true").toList
  | .no => (if h.capitals then "False" else "false").toList
  | .null => (if h.capitals then "None" else "null").toList
  | .arith op => [op.symbol]
  | .cmp op => op.symbol
  | .lparen => ['(']
  | .rparen => [')']

def keywords : List String := ["and", "or", "not", "true", "True", "false", "False", "null", "None"]

/-- an ASCII letter or `_`, and then letters, digits and `_` -/
def isIdentifier : List Char → Bool
  | [] => false
  | c :: cs => (c.isAlpha || c = '_') && cs.all fun d => d.isAlphanum || d = '_'

/-- a token that is read back from its characters: no double, an integer that 64 bits hold and that has no sign, or a
name that is an identifier and no keyword -/
def Plain : Token → Prop
  | .int n => 0 ≤ n ∧ n ≤ Number.maxInt64
  | .double _ => False
  | .name s => isIdentifier s.toList = true ∧ s ∉ keywords
  | _ => True

instance : DecidablePred Plain
  | .int n => inferInstanceAs (Decidable (0 ≤ n ∧ n ≤ Number.maxInt64))
  | .double _ => instDecidableFalse
  | .name s => inferInstanceAs (Decidable (isIdentifier s.toList = true ∧ s ∉ keywords))
  | .text _ | .and | .or | .not | .yes | .no | .null | .arith _ | .cmp _ | .lparen | .rparen => instDecidableTrue

/-- tokens, each in its hand, with a space between each two -/
def rendering (ts : List (Hand × Token)) : String := String.ofList ([' '].intercalate (ts.map fun p => p.2.write p.1))

variable {c : Char} {cs : List Char} {t : Token} {h : Hand}

/-! ## One token alone -/

theorem lexAll_single (hc : isBlank c = false) (hlex : lexToken c cs = some (t, [])) : lexAll (c :: cs) = some [t] := by
  rw [lexAll_cons hc, hlex, Option.bind_some, lexAll_nil]
  rfl

theorem lexAll_symbol (op : Cmp) : lexAll op.symbol = some [.cmp op] := by
  cases op <;> exact lexAll_single (by decide) rfl

/-! ### texts -/

theorem lexString_escaped {quote : Char} (hquote : quote = '\'' ∨ quote = '"') (cs r : List Char) :
    lexString quote (escaped quote cs ++ quote :: r) = some (cs, r) := by
  have hslash : quote ≠ '\\' := by rcases hquote with rfl | rfl <;> decide
  have hunescape : unescape quote = quote := by rcases hquote with rfl | rfl <;> rfl
  induction cs with
  | nil => rw [escaped, List.flatMap_nil, List.nil_append, lexString_cons _ _ hslash, if_pos rfl]
  | cons c cs ih =>
    rw [escaped, List.flatMap_cons, List.append_assoc, ← escaped]
    split
    · next hc =>
      have hc' : unescape c = c := by rcases hc with rfl | rfl <;> [exact hunescape; rfl]
      rw [List.cons_append, List.singleton_append, lexString, ih, hc']
      rfl
    · next hc =>
      rw [not_or] at hc
      rw [List.singleton_append, lexString_cons _ _ hc.2, if_neg hc.1, ih]
      rfl

theorem lexAll_text (h : Hand) (s : String) : lexAll (write h (.text s)) = some [.text s] := by
  have hblank : isBlank h.quote = false := by rcases h.quote_eq with heq | heq <;> rw [heq] <;> decide
  refine lexAll_single hblank ?_
  rw [lexToken_quote h.quote_eq, lexString_escaped h.quote_eq]
  simp

/-! ### numbers -/

theorem intLiteral_toDigits {n : Nat} (hn : n ≤ Number.maxInt64) : intLiteral (Nat.toDigits 10 n) = .int n := by
  have hvalue : Number.digitsValue (Nat.toDigits 10 n) = n := by
    rw [Number.digitsValue, Instant.foldl_digits, Nat.ofDigitChars_ten_toDigits]
  have hfits : Number.fitsInt64 n = true := by
    have hmin : Number.minInt64 ≤ 0 := by decide
    simp only [Number.fitsInt64, Bool.and_eq_true, decide_eq_true_eq]
    omega
  simp [intLiteral, hvalue, hfits]

theorem lexAll_toDigits {n : Nat} (hn : n ≤ Number.maxInt64) : lexAll (Nat.toDigits 10 n) = some [.int n] := by
  have hdigits : ∀ d ∈ Nat.toDigits 10 n, d.isDigit = true :=
    fun d => Nat.isDigit_of_mem_toDigits (by decide) (by decide)
  obtain ⟨c, cs, hcs⟩ := List.exists_cons_of_ne_nil (Nat.toDigits_ne_nil (n := n) (b := 10))
  have htake : (c :: cs).takeWhile Char.isDigit = c :: cs := List.takeWhile_eq_self_iff.mpr (hcs ▸ hdigits)
  have hdrop : (c :: cs).dropWhile Char.isDigit = [] := List.dropWhile_eq_nil_iff.mpr (hcs ▸ hdigits)
  have hc : c.isDigit = true := hdigits c (hcs ▸ List.mem_cons_self)
  have hblank : isBlank c = false := Bool.eq_false_iff.mpr fun hb => by simp [isDigit_of_isBlank hb] at hc
  rw [hcs]
  refine lexAll_single hblank ?_
  rw [lexToken_digit hc, lexNumber_whole (by simp [hdrop]), htake, hdrop, ← hcs, intLiteral_toDigits hn]

/-! ### words -/

theorem isWordChar_of_isWordStart (h : isWordStart c = true) : isWordChar c = true := by
  simp only [isWordStart, isWordChar, isAlphanumeric, Bool.or_eq_true] at h ⊢
  exact h.imp_left .inl

theorem lexAll_word (hc : isWordStart c = true) (hcs : ∀ d ∈ cs, isWordChar d = true) :
    lexAll (c :: cs) = some [ofWord (String.ofList (c :: cs))] := by
  have hblank : isBlank c = false := Bool.eq_false_iff.mpr fun hb => by
    simpa [isWordChar_of_isBlank hb] using isWordChar_of_isWordStart hc
  refine lexAll_single hblank ?_
  rw [lexToken_word hc, List.takeWhile_eq_self_iff.mpr hcs, List.dropWhile_eq_nil_iff.mpr hcs]

theorem isWordStart_of_isAlpha (h : c.isAlpha = true) : isWordStart c = true := by
  have hascii : c.toNat < 128 := (toNat_of_isAlphanum (Bool.or_eq_true_iff.mpr (.inl h))).2
  simp [isWordStart, isAlphabetic, hascii, h]

theorem isWordChar_of_isAlphanum (h : c.isAlphanum = true) : isWordChar c = true := by
  simp only [isWordChar, isAlphanumeric, isAlphabetic, isNumeric, (toNat_of_isAlphanum h).2, if_true]
  rw [← Char.isAlphanum, h, Bool.true_or]

theorem lexAll_identifier {s : String} (hs : isIdentifier s.toList = true) : lexAll s.toList = some [ofWord s] := by
  cases hcs : s.toList with
  | nil => simp [hcs, isIdentifier] at hs
  | cons c cs =>
    simp only [hcs, isIdentifier, Bool.and_eq_true, Bool.or_eq_true, List.all_eq_true, decide_eq_true_eq] at hs
    have hc : isWordStart c = true := by
      rcases hs.1 with halpha | rfl
      · exact isWordStart_of_isAlpha halpha
      · decide
    have hword : ∀ d ∈ cs, isWordChar d = true := by
      intro d hd
      rcases hs.2 d hd with hd | rfl
      · exact isWordChar_of_isAlphanum hd
      · decide
    rw [lexAll_word hc hword, ← hcs, String.ofList_toList]

theorem ofWord_of_notMem {s : String} (hs : s ∉ keywords) : ofWord s = .name s := by
  simp only [keywords, List.mem_cons, List.not_mem_nil, or_false, not_or] at hs
  simp [ofWord, hs]

/-! ## All tokens -/

theorem lexAll_write (h : Hand) (hp : t.Plain) : lexAll (t.write h) = some [t] := by
  cases t with
  | int n =>
    obtain ⟨m, rfl⟩ := Int.eq_ofNat_of_zero_le hp.1
    rw [write, show toString (m : Int) = String.ofList (Nat.toDigits 10 m) from rfl, String.toList_ofList]
    exact lexAll_toDigits hp.2
  | double x => exact hp.elim
  | text s => exact lexAll_text h s
  | name s => rw [write, lexAll_identifier hp.1, ofWord_of_notMem hp.2]
  | and => exact lexAll_identifier (s := "and") (by decide)
  | or => exact lexAll_identifier (s := "or") (by decide)
  | not => exact lexAll_identifier (s := "not") (by decide)
  | yes =>
    cases hc : h.capitals <;> simp only [write, hc]
    · exact lexAll_identifier (s := "true") (by decide)
    · exact lexAll_identifier (s := "True") (by decide)
  | no =>
    cases hc : h.capitals <;> simp only [write, hc]
    · exact lexAll_identifier (s := "false") (by decide)
    · exact lexAll_identifier (s := "False") (by decide)
  | null =>
    cases hc : h.capitals <;> simp only [write, hc]
    · exact lexAll_identifier (s := "null") (by decide)
    · exact lexAll_identifier (s := "None") (by decide)
  | arith op => cases op <;> exact lexAll_single (by decide) rfl
  | cmp op => exact lexAll_symbol op
  | lparen => exact lexAll_single (by decide) rfl
  | rparen => exact lexAll_single (by decide) rfl

/-- **Tokens are read back from their rendering**, where they are not too many; else nothing is read. -/
theorem tokens?_rendering (ts : List (Hand × Token)) (h : ∀ p ∈ ts, p.2.Plain) :
    tokens? (rendering ts) = if ts.length ≤ maxTokens then some (ts.map Prod.snd) else none := by
  have hwords : List.Forall₂ (fun w us => lexAll w = some us) (ts.map fun p => p.2.write p.1) (ts.map fun p => [p.2]) := by
    rw [List.forall₂_map_left_iff, List.forall₂_map_right_iff, List.forall₂_same]
    exact fun p hp => lexAll_write p.1 (h p hp)
  have hflat : (ts.map fun p => [p.2]).flatten = ts.map Prod.snd := by
    rw [← List.flatMap_def, List.map_eq_flatMap]
  rw [tokens?, rendering, String.toList_ofList, lexAll_join hwords, hflat]
  simp

namespace Sample

/-- double quotes and capitals -/
def formal : Hand := { quote := '"', quote_eq := .inr rfl, capitals := true }

/-- single quotes and small letters -/
def plain : Hand := { quote := '\'', quote_eq := .inl rfl, capitals := false }

/-- `not _a1 >= 'it\'s \\ "so"' and None` -/
def condition : List (Hand × Token) :=
  [(plain, .not), (plain, .name "_a1"), (plain, .cmp .ge), (plain, .text "it's \\ \"so\""), (plain, .and), (formal, .null)]

end Sample

/-- a condition with both quotes in one of its texts is read back, and 513 times `not` is too much -/
theorem tokens?_rendering_condition :
    (∀ p ∈ Sample.condition, p.2.Plain) ∧ (∀ p ∈ List.replicate 513 (Sample.plain, not), p.2.Plain) ∧
      tokens? (rendering Sample.condition) = some (Sample.condition.map Prod.snd) ∧
      tokens? (rendering (List.replicate 513 (Sample.plain, not))) = none := by
  have hplain : ∀ p ∈ Sample.condition, p.2.Plain := by decide
  have hmany : ∀ p ∈ List.replicate 513 (Sample.plain, not), p.2.Plain := by
    intro p hp
    rw [List.eq_of_mem_replicate hp]
    trivial
  refine ⟨hplain, hmany, ?_, ?_⟩
  · rw [tokens?_rendering Sample.condition hplain, if_pos (by decide)]
  · rw [tokens?_rendering _ hmany, if_neg (by rw [List.length_replicate]; decide)]

end Token
end Workflows
