import Workflows.Proofs.Expr.Filling
import Workflows.Proofs.Expr.Reader
import Workflows.Proofs.Expr.Respelling
import Workflows.Proofs.Expr.Writing

/-!
# Names and placeholders

A variable that holds an integer is named in an expression by itself, `x`, or in a placeholder.  A placeholder is
filled in before the text is cut into tokens, so the two agree only where the text in front of it is cut as it stands:
placeholders that are opened there are closed there, and texts that begin there end there.

* `Settled`              a piece of text is closed, and can be cut into tokens alone once it is filled in;
* `Respelled x`          the same text, but for some words `x` that are placeholders;
* `Expr.WithinLimits`    a text is within the limits on tokens and on open places.

Main statement: both spellings of a text have the same value (`evaluateText_respelled`).
-/

namespace Workflows

/-! ## Pieces that are cut alone -/

open Template Text

/-- A piece closes its placeholders, and these are its tokens once they are filled in. -/
def Cut (vars : Vars) (w : List Char) (ts : List Token) : Prop :=
  closed w = true ∧ Token.lexAll (fillChars vars w) = some ts

instance (vars : Vars) (w : List Char) (ts : List Token) : Decidable (Cut vars w ts) :=
  inferInstanceAs (Decidable (closed w = true ∧ Token.lexAll (fillChars vars w) = some ts))

/-- a piece that closes its placeholders and can be cut into tokens alone once they are filled in -/
def Settled (vars : Vars) (w : List Char) : Prop := ∃ ts, Cut vars w ts

variable {vars : Vars} {w cs : List Char} {ts : List Token} {x : String} {n : Int}

theorem Cut.lexAll_append (h : Cut vars w ts) (cs : List Char) :
    Token.lexAll (fillChars vars (w ++ ' ' :: cs)) = (Token.lexAll (fillChars vars cs)).map (ts ++ ·) := by
  have hspace : isBlank ' ' = true := by decide
  have hparted : ¬Straddled w (' ' :: cs) := fun h => by simp [Straddled] at h
  rw [fillChars_append h.1 hparted, fillChars_cons (by simp), Token.lexAll_append (Token.parted_cons.mpr hspace) h.2,
    Token.lexAll_blank hspace]

theorem Cut.of_notMem (h : '$' ∉ w) (hlex : Token.lexAll w = some ts) : Cut vars w ts :=
  ⟨closed_of_notMem h, by rw [fillChars_of_notMem h, hlex]⟩

/-! ### the two spellings -/

/-- a bare name: letters, digits and `_`, no digit first, and no keyword -/
def Token.IsName (x : String) : Prop :=
  x ∉ Token.keywords ∧ ∃ c cs, x.toList = c :: cs ∧ Token.isWordStart c = true ∧ ∀ d ∈ cs, Token.isWordChar d = true

theorem dropWhile_of_free (h : ∀ d ∈ cs, isBlank d = false) : cs.dropWhile isBlank = cs := by
  cases cs with
  | nil => rfl
  | cons c cs => rw [List.dropWhile_cons_of_neg (Bool.eq_false_iff.mp (h c List.mem_cons_self))]

theorem trimChars_of_free (h : ∀ d ∈ cs, isBlank d = false) : trimChars cs = cs := by
  rw [trimChars, dropWhile_of_free h, dropBlankEnd, dropWhile_of_free, List.reverse_reverse]
  exact fun d hd => h d (List.mem_reverse.mp hd)

namespace Token.IsName

theorem isWordChar (hx : IsName x) : ∀ d ∈ x.toList, Token.isWordChar d = true := by
  obtain ⟨-, c, cs, hcs, hc, hword⟩ := hx
  rw [hcs]
  exact List.forall_mem_cons.mpr ⟨isWordChar_of_isWordStart hc, hword⟩

theorem notMem {d : Char} (hx : IsName x) (hd : Token.isWordChar d = false) : d ∉ x.toList := fun hmem => by
  rw [hx.isWordChar d hmem] at hd
  cases hd

theorem cut (hx : IsName x) : Cut vars x.toList [.name x] := by
  refine .of_notMem (hx.notMem (by decide)) ?_
  obtain ⟨hkey, c, cs, hcs, hc, hword⟩ := hx
  rw [hcs, lexAll_word hc hword, ← hcs, String.ofList_toList, ofWord_of_notMem hkey]

theorem trim_eq (hx : IsName x) : trim x = x := by
  have hblank : ∀ d ∈ x.toList, isBlank d = false := fun d hd => Bool.eq_false_iff.mpr fun hb => by
    simpa [isWordChar_of_isBlank hb] using hx.isWordChar d hd
  rw [trim, trimChars_of_free hblank, String.ofList_toList]

end Token.IsName

theorem lexAll_intText (hmin : Number.minInt64 < n) (hmax : n ≤ Number.maxInt64) :
    Token.lexAll (Json.text (.int n)).toList = some (Token.ofInt n) := by
  cases n with
  | ofNat m =>
    have htext : (Json.text (.int (Int.ofNat m))).toList = Nat.toDigits 10 m := String.toList_ofList
    have hneg : ¬Int.ofNat m < 0 := Int.not_lt.mpr (Int.natCast_nonneg m)
    rw [htext, Token.lexAll_toDigits hmax, Token.ofInt, if_neg hneg]
    rfl
  | negSucc m =>
    have htext : (Json.text (.int (.negSucc m))).toList = '-' :: Nat.toDigits 10 (m + 1) := by
      rw [show Json.text (.int (.negSucc m)) = "-" ++ String.ofList (Nat.toDigits 10 (m + 1)) from rfl,
        String.toList_append, String.toList_ofList, String.toList_ofList, List.singleton_append]
    have hbounds : Number.minInt64 = -Number.maxInt64 - 1 := by decide
    have hm : ((m + 1 : Nat) : Int) ≤ Number.maxInt64 := by omega
    have hminus : Token.lexToken '-' (Nat.toDigits 10 (m + 1)) = some (.arith .sub, Nat.toDigits 10 (m + 1)) := rfl
    rw [htext, Token.lexAll_cons (by decide), hminus, Option.bind_some, Token.lexAll_toDigits hm, Token.ofInt,
      if_pos (Int.negSucc_lt_zero m)]
    rfl

theorem placeholder_cut (hx : Token.IsName x) (hvar : Dict.get? vars x = some (.int n)) (hmin : Number.minInt64 < n)
    (hmax : n ≤ Number.maxInt64) : Cut vars (placeholder x) (Token.ofInt n) := by
  have hsplit := splitClose_name (hx.notMem (show Token.isWordChar '\x7d' = false by decide))
  constructor
  · rw [placeholder, closed_of_splitClose hsplit, closed]
  · rw [placeholder, fillChars_closed hsplit, filling, String.ofList_toList, hx.trim_eq, Vars.lookup?, hvar, fillChars,
      List.append_nil]
    exact lexAll_intText hmin hmax

/-! ## Texts -/

/-- The same text, but for some words `x` that are placeholders.  What stands in front of such a word is settled, word
by word; what comes after the last one may be anything. -/
inductive Respelled (vars : Vars) (x : String) : List Char → List Char → Prop
  | same (cs : List Char) : Respelled vars x cs cs
  | keep {w cs ds : List Char} (hw : Settled vars w) (h : Respelled vars x cs ds) :
      Respelled vars x (w ++ ' ' :: cs) (w ++ ' ' :: ds)
  | swap {cs ds : List Char} (h : Respelled vars x cs ds) :
      Respelled vars x (x.toList ++ ' ' :: cs) (placeholder x ++ ' ' :: ds)
  | last : Respelled vars x x.toList (placeholder x)

theorem Respelled.tokens {cs ds : List Char} (h : Respelled vars x cs ds) (hx : Token.IsName x)
    (hvar : Dict.get? vars x = some (.int n)) (hmin : Number.minInt64 < n) (hmax : n ≤ Number.maxInt64)
    (hts : Token.lexAll (fillChars vars cs) = some ts) :
    ∃ us, Token.lexAll (fillChars vars ds) = some us ∧ Expr.Respelt x n ts us := by
  have hplaceholder := placeholder_cut hx hvar hmin hmax
  induction h generalizing ts with
  | same => exact ⟨ts, hts, .refl ts⟩
  | keep hw _ ih =>
    obtain ⟨ws, hws⟩ := hw
    rw [hws.lexAll_append] at hts
    obtain ⟨ts, hcs, rfl⟩ := Option.map_eq_some_iff.mp hts
    obtain ⟨us, hus, hrespelt⟩ := ih hcs
    exact ⟨ws ++ us, by rw [hws.lexAll_append, hus, Option.map_some], (Expr.Respelt.refl ws).append hrespelt⟩
  | swap _ ih =>
    rw [hx.cut.lexAll_append] at hts
    obtain ⟨ts, hcs, rfl⟩ := Option.map_eq_some_iff.mp hts
    obtain ⟨us, hus, hrespelt⟩ := ih hcs
    exact ⟨Token.ofInt n ++ us, by rw [hplaceholder.lexAll_append, hus, Option.map_some], .swap hrespelt rfl⟩
  | last =>
    rw [hx.cut.2] at hts
    cases hts
    exact ⟨Token.ofInt n, hplaceholder.2, .swap .nil (List.append_nil _).symm⟩

/-! ### values -/

/-- a text has no more tokens, and opens no more places at a time, than an expression may -/
def Expr.WithinLimits (s : String) : Prop :=
  ∀ ts, Token.lexAll s.toList = some ts →
    ts.length ≤ Token.maxTokens ∧ ∀ e, ∀ D : Expr.Derivation .or ts e, D.frames ≤ Expr.maxOpen

theorem Expr.Derivation.frames_le_length {l : Expr.Layer} {e : Expr} (D : Expr.Derivation l ts e) :
    D.frames ≤ ts.length := by
  induction D with
  | or | and | first | next | sum | product =>
    simp only [Expr.Derivation.frames, List.length_append, List.length_cons]
    omega
  | not | minus | plus | parens =>
    simp only [Expr.Derivation.frames, List.length_cons, List.length_append]
    omega
  | ofAnd _ ih | ofNot _ ih | ofComparison _ ih | chain _ ih | ofSum _ ih | ofProduct _ ih | ofSign _ ih
  | ofOperand _ ih => exact ih
  | literal | name => exact Nat.zero_le _

theorem Expr.withinLimits_of_few {s : String} (hts : Token.lexAll s.toList = some ts) (hfew : ts.length ≤ Expr.maxOpen) :
    Expr.WithinLimits s := by
  intro us hus
  cases hts.symm.trans hus
  exact ⟨hfew.trans (by decide), fun e D => D.frames_le_length.trans hfew⟩

theorem evaluateFilled?_eq_some {s : String} {v : Json} (h : truthWord? (lowercase (trim s)) = none) :
    evaluateFilled? vars (trim s) = some v ↔
      ∃ ts e, Token.lexAll s.toList = some ts ∧ ts.length ≤ Token.maxTokens ∧
        Expr.parse? ts = some e ∧ Expr.eval? vars e = some v := by
  have hlex : Token.lexAll (trim s).toList = Token.lexAll s.toList := by
    rw [trim, String.toList_ofList, Token.lexAll_trimChars]
  simp only [evaluateFilled?, h, Expr.read?, Token.tokens?, hlex]
  cases Token.lexAll s.toList with
  | none => simp
  | some ts =>
    by_cases hlen : ts.length ≤ Token.maxTokens
    · simp [hlen, Option.bind_eq_some_iff]
    · simp [hlen]

theorem evaluateText_eq_value {text : String} {v : Json} :
    evaluateText vars text = .value v ↔ evaluateFilled? vars (trim (fill vars text)) = some v := by
  unfold evaluateText
  cases h : evaluateFilled? vars (trim (fill vars text)) <;> simp [h]

/-- **A name and a placeholder of it have the same value**, where the variable holds an integer. -/
theorem evaluateText_respelled {text text' : String} {v : Json} (hx : Token.IsName x)
    (hvar : Dict.get? vars x = some (.int n)) (hmin : Number.minInt64 < n) (hmax : n ≤ Number.maxInt64)
    (h : Respelled vars x text.toList text'.toList) (hv : evaluateText vars text = .value v)
    (htruth : truthWord? (lowercase (trim (fill vars text))) = none)
    (htruth' : truthWord? (lowercase (trim (fill vars text'))) = none) (hlimits : Expr.WithinLimits (fill vars text')) :
    evaluateText vars text' = .value v := by
  obtain ⟨ts, e, hts, _, he, heval⟩ := (evaluateFilled?_eq_some htruth).mp (evaluateText_eq_value.mp hv)
  obtain ⟨D, _⟩ := Expr.derives_of_parse? he
  rw [fill, String.toList_ofList] at hts
  obtain ⟨us, hus, hrespelt⟩ := h.tokens hx hvar hmin hmax hts
  obtain ⟨e', hsame, ⟨E⟩⟩ := D.respells hvar hmin hmax us hrespelt
  have hlex : Token.lexAll (fill vars text').toList = some us := by rw [fill, String.toList_ofList, hus]
  obtain ⟨hlength, hframes⟩ := hlimits us hlex
  refine evaluateText_eq_value.mpr ((evaluateFilled?_eq_some htruth').mpr ⟨us, e', hlex, hlength, ?_, ?_⟩)
  · exact Expr.parse?_of_derivation E (hframes e' E)
  · rw [hsame.eval, heval]

namespace Sample

def negative : Vars := [("x", .int (-5)), ("y", .str "it")]

def five : Vars := [("x", .int 5)]

/-- texts that close a quote and open another -/
def quotes : Vars := [("x", .int 5), ("y", .str "' + \""), ("z", .str " + \"")]

end Sample

/-- a difference of two negative numbers, behind a text with a placeholder in it -/
theorem evaluateText_respelled_negative :
    evaluateText Sample.negative "'$\x7by\x7d' == 'it' and x - x" = .value (.int 0) ∧
      evaluateText Sample.negative "'$\x7by\x7d' == 'it' and $\x7bx\x7d - $\x7bx\x7d" = .value (.int 0) := by
  have hname : Token.IsName "x" := ⟨by decide, 'x', [], rfl, by decide, nofun⟩
  have hv : evaluateText Sample.negative "'$\x7by\x7d' == 'it' and x - x" = .value (.int 0) := by decide +kernel
  have hy : Settled Sample.negative "'$\x7by\x7d'".toList := ⟨[.text "it"], by decide +kernel⟩
  have heq : Settled Sample.negative "==".toList := ⟨[.cmp .eq], by decide +kernel⟩
  have hit : Settled Sample.negative "'it'".toList := ⟨[.text "it"], by decide +kernel⟩
  have hand : Settled Sample.negative "and".toList := ⟨[.and], by decide +kernel⟩
  have hsub : Settled Sample.negative "-".toList := ⟨[.arith .sub], by decide +kernel⟩
  have hrespelled : Respelled Sample.negative "x" "'$\x7by\x7d' == 'it' and x - x".toList
      "'$\x7by\x7d' == 'it' and $\x7bx\x7d - $\x7bx\x7d".toList :=
    .keep hy (.keep heq (.keep hit (.keep hand (.swap (.keep hsub .last)))))
  have htokens : Token.lexAll (fill Sample.negative "'$\x7by\x7d' == 'it' and $\x7bx\x7d - $\x7bx\x7d").toList =
      some [.text "it", .cmp .eq, .text "it", .and, .arith .sub, .int 5, .arith .sub, .arith .sub, .int 5] := by
    decide +kernel
  exact ⟨hv, evaluateText_respelled hname rfl (by decide) (by decide) hrespelled hv (by decide +kernel)
    (by decide +kernel) (Expr.withinLimits_of_few htokens (by decide))⟩

/-- A quoted `${` swallows the placeholder behind it, and quotes that are filled in can take a name into a text. -/
theorem evaluateText_unsettled :
    (truthWord? (lowercase (trim (fill Sample.five "'$\x7b' == 'a' or x"))) = none ∧
      truthWord? (lowercase (trim (fill Sample.five "'$\x7b' == 'a' or $\x7bx\x7d"))) = none ∧
      Expr.WithinLimits (fill Sample.five "'$\x7b' == 'a' or $\x7bx\x7d") ∧
      evaluateText Sample.five "'$\x7b' == 'a' or x" = .value (.int 5) ∧
      evaluateText Sample.five "'$\x7b' == 'a' or $\x7bx\x7d" = .unevaluated "'$\x7b' == 'a' or $\x7bx\x7d") ∧
    evaluateText Sample.quotes "'$\x7by\x7d' + x + \"$\x7bz\x7d\"" = .value (.str "' + x + ") ∧
    evaluateText Sample.quotes "'$\x7by\x7d' + $\x7bx\x7d + \"$\x7bz\x7d\"" = .value (.str "' + 5 + ") := by
  refine ⟨⟨by decide +kernel, by decide +kernel, ?_, by decide +kernel, by decide +kernel⟩, by decide +kernel,
    by decide +kernel⟩
  -- the second text cannot be cut into tokens
  have hnone : Token.lexAll (fill Sample.five "'$\x7b' == 'a' or $\x7bx\x7d").toList = none := by decide +kernel
  exact fun ts hts => by simp [hnone] at hts

end Workflows
