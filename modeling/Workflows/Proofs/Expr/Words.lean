import Mathlib.Data.List.Forall2
import Mathlib.Data.List.TakeWhile
import Workflows.Expr.Token

/-!
# Tokens and the blanks between them

A blank ends a token, and blanks themselves are no tokens.

* `Parted`            what may follow a token without changing it: nothing, or a blank first;
* `lexToken_append`   a token is the same in front of it;
* `lexAll_append`     the tokens of a text in front of it stand in front of its tokens;
* `lexAll_join`       the tokens of words between single blanks are those of the words, one word after the other.

Main statement: blanks at the ends of a text change nothing (`lexAll_trimChars`).
-/

namespace Workflows.Token
open Text

variable {c : Char} {cs s u r : List Char} {t : Token} {ts : List Token}

/-! ## Blanks -/

/-- the blanks, as ranges of code points -/
def blankRanges : Ranges :=
  [(0x9, 0xD), (0x20, 0x20), (0x85, 0x85), (0xA0, 0xA0), (0x1680, 0x1680), (0x2000, 0x200A), (0x2028, 0x2029),
    (0x202F, 0x202F), (0x205F, 0x205F), (0x3000, 0x3000)]

theorem has_blankRanges (h : isBlank c = true) : blankRanges.has c.toNat = true := by
  simp only [isBlank, Bool.or_eq_true, beq_iff_eq, Bool.and_eq_true, decide_eq_true_eq] at h
  simp only [blankRanges, Ranges.has, List.any_cons, List.any_nil, Bool.or_false, Bool.or_eq_true, Bool.and_eq_true,
    decide_eq_true_eq]
  omega

/-- no range of one table meets a range of the other -/
def apart (table others : Ranges) : Bool :=
  table.all fun r => others.all fun o => Nat.blt o.2 r.1 || Nat.blt r.2 o.1

theorem has_eq_false_of_apart {table others : Ranges} {code : Nat} (hapart : apart table others = true)
    (h : others.has code = true) : table.has code = false := by
  obtain ⟨o, ho, hcode⟩ := List.any_eq_true.mp h
  refine List.any_eq_false.mpr fun r hr => ?_
  have hmeet := List.all_eq_true.mp (List.all_eq_true.mp hapart r hr) o ho
  simp only [Bool.or_eq_true, Nat.blt_eq, Bool.and_eq_true, decide_eq_true_eq] at hmeet hcode ⊢
  omega

theorem apart_alphabeticRanges : apart alphabeticRanges blankRanges = true := by decide +kernel

theorem apart_numericRanges : apart numericRanges blankRanges = true := by decide +kernel

/-- where the letters and digits of ASCII are -/
theorem toNat_of_isAlphanum (h : c.isAlphanum = true) : 48 ≤ c.toNat ∧ c.toNat < 128 := by
  have hranges : (decide (c.val ≥ 'A'.val ∧ c.val ≤ 'Z'.val) || (c.val ≥ 'a'.val && c.val ≤ 'z'.val) ||
      (c.val ≥ '0'.val && c.val ≤ '9'.val)) = true := h
  simp only [Bool.or_eq_true, Bool.and_eq_true, decide_eq_true_eq, UInt32.le_iff_toNat_le, ge_iff_le] at hranges
  have hA : 'A'.val.toNat = 65 := rfl
  have hZ : 'Z'.val.toNat = 90 := rfl
  have ha : 'a'.val.toNat = 97 := rfl
  have hz : 'z'.val.toNat = 122 := rfl
  have h0 : '0'.val.toNat = 48 := rfl
  have h9 : '9'.val.toNat = 57 := rfl
  have hc : c.toNat = c.val.toNat := rfl
  omega

/-- The blanks of ASCII stand before its letters and digits. -/
theorem ascii_of_isBlank (h : isBlank c = true) (hascii : c.toNat < 128) : c.isAlpha = false ∧ c.isDigit = false := by
  have hlow : c.toNat ≤ 32 := by
    simp only [isBlank, Bool.or_eq_true, beq_iff_eq, Bool.and_eq_true, decide_eq_true_eq] at h
    omega
  have hneither : c.isAlphanum = false := Bool.eq_false_iff.mpr fun halphanum => by
    have habove := (toNat_of_isAlphanum halphanum).1
    omega
  exact Bool.or_eq_false_iff.mp hneither

theorem isAlphanumeric_of_isBlank (h : isBlank c = true) : isAlphanumeric c = false := by
  have hranges := has_blankRanges h
  rw [isAlphanumeric, isAlphabetic, isNumeric]
  split
  · next hascii =>
    rw [(ascii_of_isBlank h hascii).1, (ascii_of_isBlank h hascii).2]
    rfl
  · rw [has_eq_false_of_apart apart_alphabeticRanges hranges, has_eq_false_of_apart apart_numericRanges hranges]
    rfl

theorem isWordChar_of_isBlank (h : isBlank c = true) : isWordChar c = false := by
  have hscore : ¬ c = '_' := by
    rintro rfl
    cases h
  rw [isWordChar, isAlphanumeric_of_isBlank h, decide_eq_false hscore]
  rfl

theorem isDigit_of_isBlank (h : isBlank c = true) : c.isDigit = false := by
  refine Bool.eq_false_iff.mpr fun hdigit => ?_
  have hascii : c.toNat < 128 := by
    simp only [Char.isDigit, Bool.and_eq_true, decide_eq_true_eq, UInt32.le_iff_toNat_le] at hdigit
    exact hdigit.2.trans_lt (by decide)
  rw [(ascii_of_isBlank h hascii).2] at hdigit
  cases hdigit

/-- nothing, or a text that starts with a blank -/
def Parted (s : List Char) : Prop := ∀ c ∈ s.head?, isBlank c = true

theorem parted_cons : Parted (c :: cs) ↔ isBlank c = true := by simp [Parted]

/-! ## One token -/

theorem takeWhile_append {p : Char → Bool} (hp : ∀ c, isBlank c = true → p c = false) (hs : Parted s)
    (cs : List Char) :
    (cs ++ s).takeWhile p = cs.takeWhile p ∧ (cs ++ s).dropWhile p = cs.dropWhile p ++ s := by
  induction cs with
  | nil =>
    cases s with
    | nil => exact ⟨rfl, rfl⟩
    | cons b s => simp [hp b (parted_cons.mp hs)]
  | cons c cs ih => by_cases h : p c = true <;> simp [h, ih]

theorem lexString_cons (quote : Char) (cs : List Char) (h : c ≠ '\\') : lexString quote (c :: cs) =
    if c = quote then some ([], cs) else (lexString quote cs).map fun p => (c :: p.1, p.2) := by
  rw [lexString]
  · exact fun heq _ => h heq
  · exact fun _ _ heq _ => h heq

theorem ne_backslash (hnil : c = '\\' → cs = [] → False)
    (hcons : ∀ d ds, c = '\\' → cs = d :: ds → False) : c ≠ '\\' := by
  rintro rfl
  cases cs with
  | nil => exact hnil rfl rfl
  | cons d ds => exact hcons d ds rfl rfl

theorem lexString_append {quote : Char} {x : List Char} (s : List Char) (h : lexString quote cs = some (x, r)) :
    lexString quote (cs ++ s) = some (x, r ++ s) := by
  fun_induction lexString quote cs generalizing x with
  | case1 => cases h
  | case2 => cases h
  | case3 c cs ih =>
    obtain ⟨⟨y, r'⟩, hp, he⟩ := Option.map_eq_some_iff.mp h
    cases he
    simp only [List.cons_append, lexString, ih hp, Option.map_some]
  | case4 cs hnil hcons =>
    cases h
    rw [List.cons_append, lexString_cons _ _ (ne_backslash hnil hcons), if_pos rfl]
  | case5 c cs hnil hcons hquote ih =>
    obtain ⟨⟨y, r'⟩, hp, he⟩ := Option.map_eq_some_iff.mp h
    cases he
    rw [List.cons_append, lexString_cons _ _ (ne_backslash hnil hcons), if_neg hquote, ih hp, Option.map_some]

/-- a number without a point: its digits, where what follows does not make it a double -/
theorem lexNumber_whole {cs : List Char} (h : ∀ d ds, cs.dropWhile Char.isDigit = '.' :: d :: ds → d.isDigit = false) :
    lexNumber cs = (intLiteral (cs.takeWhile Char.isDigit), cs.dropWhile Char.isDigit) := by
  unfold lexNumber
  simp only
  split
  · next d ds heq => rw [if_neg (by simp [h d ds heq]), ← heq]
  · rfl

theorem lexNumber_append (hs : Parted s) (cs : List Char) :
    lexNumber (cs ++ s) = ((lexNumber cs).1, (lexNumber cs).2 ++ s) := by
  obtain ⟨htake, hdrop⟩ := takeWhile_append (fun _ => isDigit_of_isBlank) hs cs
  by_cases h : ∃ d ds, cs.dropWhile Char.isDigit = '.' :: d :: ds ∧ d.isDigit = true
  · obtain ⟨d, ds, hrest, hd⟩ := h
    obtain ⟨htake', hdrop'⟩ := takeWhile_append (fun _ => isDigit_of_isBlank) hs (d :: ds)
    simp only [lexNumber, htake, hdrop, hrest, List.cons_append, hd, if_true]
    rw [← List.cons_append, htake', hdrop']
  · have hwhole : ∀ d ds, cs.dropWhile Char.isDigit = '.' :: d :: ds → d.isDigit = false :=
      fun d ds hrest => Bool.eq_false_iff.mpr fun hd => h ⟨d, ds, hrest, hd⟩
    rw [lexNumber_whole hwhole, lexNumber_whole, htake, hdrop]
    intro d ds hrest
    rw [hdrop] at hrest
    -- the digit behind the point would stand in `cs`, or be the first character of what follows
    rcases hcs : cs.dropWhile Char.isDigit with _ | ⟨p, _ | ⟨e, es⟩⟩
    · rw [hcs, List.nil_append] at hrest
      exact absurd (parted_cons.mp (hrest ▸ hs)) (by decide)
    · rw [hcs] at hrest
      obtain ⟨rfl, hs'⟩ := List.cons_eq_cons.mp hrest
      obtain rfl : s = d :: ds := hs'
      exact isDigit_of_isBlank (parted_cons.mp hs)
    · rw [hcs] at hrest
      obtain ⟨rfl, hes⟩ := List.cons_eq_cons.mp hrest
      obtain ⟨rfl, _⟩ := List.cons_eq_cons.mp hes
      exact hwhole e es hcs

/-- the characters that a token other than a number or a word starts with -/
def marks : List Char := ['(', ')', '+', '-', '*', '/', '%', '=', '!', '<', '>', '\'', '"']

theorem single?_eq_none (h : c ∉ marks) : single? c = none := by
  simp only [marks, List.mem_cons, List.not_mem_nil, or_false, not_or] at h
  simp [single?, h]

theorem notMem_marks {p : Char → Bool} (hmarks : marks.any p = false) (h : p c = true) : c ∉ marks := by
  intro hc
  rw [List.any_eq_false] at hmarks
  exact hmarks c hc h

theorem lexToken_single (h : single? c = some t) (cs : List Char) : lexToken c cs = some (t, cs) := by
  unfold lexToken
  rw [h]

theorem lexToken_comparison (h : c ∈ ['=', '!', '<', '>']) (cs : List Char) : lexToken c cs =
    (comparison? c (cs.head? = some '=')).map fun op => (.cmp op, if cs.head? = some '=' then cs.tail else cs) := by
  have hsingle : single? c = none := by
    simp only [List.mem_cons, List.not_mem_nil, or_false] at h
    rcases h with rfl | rfl | rfl | rfl <;> rfl
  have hc : (c = '=' || c = '!' || c = '<' || c = '>') = true := by simpa [or_assoc] using h
  unfold lexToken
  rw [hsingle]
  simp only [hc, if_true]
  split
  · rfl
  · next hne =>
    have hhead : cs.head? ≠ some '=' := by
      intro heq
      cases cs with
      | nil => cases heq
      | cons d ds => exact hne ds (by simpa using heq)
    simp [hhead]

theorem lexToken_quote (h : c = '\'' ∨ c = '"') (cs : List Char) :
    lexToken c cs = (lexString c cs).map fun p => (.text (String.ofList p.1), p.2) := by
  rcases h with rfl | rfl <;> rfl

/-- a number, a word, or nothing at all -/
theorem lexToken_of_notMem (h : c ∉ marks) (cs : List Char) : lexToken c cs =
    if c.isDigit then some (lexNumber (c :: cs))
    else if isWordStart c then
      some (ofWord (String.ofList (c :: cs.takeWhile isWordChar)), cs.dropWhile isWordChar)
    else none := by
  have hsingle : single? c = none := single?_eq_none h
  simp only [marks, List.mem_cons, List.not_mem_nil, or_false, not_or] at h
  unfold lexToken
  simp [hsingle, h]

theorem lexToken_digit (h : c.isDigit = true) (cs : List Char) : lexToken c cs = some (lexNumber (c :: cs)) := by
  rw [lexToken_of_notMem (notMem_marks (by decide) h), if_pos h]

theorem not_isWordStart_of_isDigit (h : c.isDigit = true) : isWordStart c = false := by
  have hcodes : ∀ n ∈ List.range' 48 10, isWordStart (Char.ofNat n) = false := by decide
  rw [← Char.ofNat_toNat c]
  refine hcodes _ (List.mem_range'_1.mpr ?_)
  simp only [Char.isDigit, Bool.and_eq_true, decide_eq_true_eq, UInt32.le_iff_toNat_le] at h
  exact ⟨h.1, Nat.lt_succ_of_le h.2⟩

theorem lexToken_word (h : isWordStart c = true) (cs : List Char) : lexToken c cs =
    some (ofWord (String.ofList (c :: cs.takeWhile isWordChar)), cs.dropWhile isWordChar) := by
  have hdigit : ¬c.isDigit = true := fun hd => by simp [not_isWordStart_of_isDigit hd] at h
  rw [lexToken_of_notMem (notMem_marks (by decide) h), if_neg hdigit, if_pos h]

theorem head?_append_eq_equals (hs : Parted s) (cs : List Char) : (cs ++ s).head? = some '=' ↔ cs.head? = some '=' := by
  cases cs with
  | nil => exact ⟨fun h => absurd (hs _ h) (by decide), nofun⟩
  | cons c cs => rfl

/-- A token is the same in front of such a text, if its quoted characters are. -/
theorem lexToken_append_of_string (hs : Parted s)
    (hstring : c = '\'' ∨ c = '"' → lexString c (cs ++ s) = (lexString c cs).map fun p => (p.1, p.2 ++ s)) :
    lexToken c (cs ++ s) = (lexToken c cs).map fun p => (p.1, p.2 ++ s) := by
  rcases hsingle : single? c with _ | t
  case some => rw [lexToken_single hsingle, lexToken_single hsingle, Option.map_some]
  by_cases hcomparison : c ∈ ['=', '!', '<', '>']
  · rw [lexToken_comparison hcomparison, lexToken_comparison hcomparison, Option.map_map]
    simp only [head?_append_eq_equals hs]
    refine Option.map_congr fun op _ => ?_
    simp only [Function.comp_apply]
    split
    · next heq => rw [List.tail_append_of_ne_nil (fun hnil => by simp [hnil] at heq)]
    · rfl
  by_cases hquote : c = '\'' ∨ c = '"'
  · rw [lexToken_quote hquote, lexToken_quote hquote, hstring hquote, Option.map_map, Option.map_map]
    rfl
  by_cases hdigit : c.isDigit = true
  · rw [lexToken_digit hdigit, lexToken_digit hdigit, ← List.cons_append, lexNumber_append hs, Option.map_some]
  by_cases hword : isWordStart c = true
  · obtain ⟨htake, hdrop⟩ := takeWhile_append (fun _ => isWordChar_of_isBlank) hs cs
    rw [lexToken_word hword, lexToken_word hword, htake, hdrop, Option.map_some]
  · -- no token starts with `c`
    simp only [List.mem_cons, List.not_mem_nil, or_false, not_or] at hcomparison hquote
    unfold lexToken
    simp [hsingle, hcomparison, hquote, hdigit, hword]

theorem lexToken_append (hs : Parted s) (h : lexToken c cs = some (t, r)) : lexToken c (cs ++ s) = some (t, r ++ s) := by
  rw [lexToken_append_of_string hs, h, Option.map_some]
  intro hquote
  rw [lexToken_quote hquote] at h
  obtain ⟨p, hp, -⟩ := Option.map_eq_some_iff.mp h
  rw [lexString_append s hp, hp, Option.map_some]

/-! ## All tokens -/

theorem lexAll_append (hs : Parted s) (h : lexAll u = some ts) : lexAll (u ++ s) = (lexAll s).map (ts ++ ·) := by
  fun_induction lexAll u generalizing ts with
  | case1 => cases h; simp
  | case2 c cs hblank ih => rw [List.cons_append, lexAll_blank hblank, ih h]
  | case3 => cases h
  | case4 c cs hblank t r hlex _ ih =>
    obtain ⟨us, hus, rfl⟩ := Option.map_eq_some_iff.mp h
    rw [List.cons_append, lexAll_cons (Bool.eq_false_iff.mpr hblank), lexToken_append hs hlex]
    simp only [Option.bind_some, ih hus, Option.map_map]
    rfl

theorem lexAll_join {ws : List (List Char)} {tss : List (List Token)}
    (h : List.Forall₂ (fun w ts => lexAll w = some ts) ws tss) : lexAll ([' '].intercalate ws) = some tss.flatten := by
  induction h with
  | nil => simp
  | @cons w ts ws tss hw hws ih =>
    cases hws with
    | nil => simpa using hw
    | cons =>
      have hspace : isBlank ' ' = true := by decide
      rw [List.intercalate_cons_cons, List.append_assoc, List.singleton_append, lexAll_append (parted_cons.mpr hspace) hw,
        lexAll_blank hspace, ih]
      rfl

/-! ## Blanks at the ends -/

theorem lexAll_dropWhile (cs : List Char) : lexAll (cs.dropWhile isBlank) = lexAll cs := by
  induction cs with
  | nil => rfl
  | cons c cs ih =>
    by_cases h : isBlank c = true
    · rw [List.dropWhile_cons_of_pos h, ih, lexAll_blank h]
    · rw [List.dropWhile_cons_of_neg h]

variable {quote : Char} {bs : List Char}

/-- blanks close no string -/
theorem lexString_blanks (hquote : isBlank quote = false) (hbs : ∀ b ∈ bs, isBlank b = true) :
    lexString quote bs = none := by
  induction bs with
  | nil => rfl
  | cons b bs ih =>
    have hb : isBlank b = true := hbs b List.mem_cons_self
    have hne : b ≠ quote := fun heq => by simp [heq, hquote] at hb
    have hslash : b ≠ '\\' := fun heq => by simp [heq, show isBlank '\\' = false by decide] at hb
    rw [lexString_cons _ _ hslash, if_neg hne, ih fun d hd => hbs d (List.mem_cons_of_mem _ hd)]
    rfl

theorem lexString_append_blanks (hquote : isBlank quote = false) (hbs : ∀ b ∈ bs, isBlank b = true)
    (h : lexString quote cs = none) : lexString quote (cs ++ bs) = none := by
  fun_induction lexString quote cs with
  | case1 => exact lexString_blanks hquote hbs
  | case2 =>
    cases bs with
    | nil => rfl
    | cons b bs =>
      have hbs' : ∀ d ∈ bs, isBlank d = true := fun d hd => hbs d (List.mem_cons_of_mem _ hd)
      simp [lexString, lexString_blanks hquote hbs']
  | case3 c cs ih => simp [lexString, ih (Option.map_eq_none_iff.mp h)]
  | case4 => cases h
  | case5 c cs hnil hcons hne ih =>
    rw [List.cons_append, lexString_cons _ _ (ne_backslash hnil hcons), if_neg hne, ih (Option.map_eq_none_iff.mp h)]
    rfl

theorem lexToken_append_blanks (hbs : ∀ b ∈ bs, isBlank b = true) (h : lexToken c cs = none) :
    lexToken c (cs ++ bs) = none := by
  rw [lexToken_append_of_string (fun b hb => hbs b (List.mem_of_mem_head? hb)), h, Option.map_none]
  intro hquote
  rw [lexToken_quote hquote, Option.map_eq_none_iff] at h
  have hblank : isBlank c = false := by rcases hquote with rfl | rfl <;> decide
  rw [lexString_append_blanks hblank hbs h, h, Option.map_none]

theorem lexAll_blanks (hbs : ∀ b ∈ bs, isBlank b = true) : lexAll bs = some [] := by
  induction bs with
  | nil => exact lexAll_nil
  | cons b bs ih => rw [lexAll_blank (hbs b List.mem_cons_self), ih fun d hd => hbs d (List.mem_cons_of_mem _ hd)]

theorem lexAll_append_blanks (hbs : ∀ b ∈ bs, isBlank b = true) (u : List Char) : lexAll (u ++ bs) = lexAll u := by
  have hs : Parted bs := fun b hb => hbs b (List.mem_of_mem_head? hb)
  fun_induction lexAll u with
  | case1 => exact lexAll_blanks hbs
  | case2 c cs hblank ih => rw [List.cons_append, lexAll_blank hblank, ih]
  | case3 c cs hblank hlex =>
    rw [List.cons_append, lexAll_cons (Bool.eq_false_iff.mpr hblank), lexToken_append_blanks hbs hlex, Option.bind_none]
  | case4 c cs hblank t r hlex _ ih =>
    rw [List.cons_append, lexAll_cons (Bool.eq_false_iff.mpr hblank), lexToken_append hs hlex, Option.bind_some, ih]

/-- **Blanks at the ends of a text change nothing about its tokens.** -/
theorem lexAll_trimChars (cs : List Char) : lexAll (trimChars cs) = lexAll cs := by
  have hblanks : ∀ b ∈ ((cs.dropWhile isBlank).reverse.takeWhile isBlank).reverse, isBlank b = true :=
    fun b hb => List.mem_takeWhile_imp (List.mem_reverse.mp hb)
  have hends : cs.dropWhile isBlank = trimChars cs ++ ((cs.dropWhile isBlank).reverse.takeWhile isBlank).reverse := by
    rw [trimChars, dropBlankEnd, ← List.reverse_append, List.takeWhile_append_dropWhile, List.reverse_reverse]
  rw [← lexAll_dropWhile cs, hends, lexAll_append_blanks hblanks]

end Workflows.Token
