import Mathlib.Data.List.Find
import Mathlib.Data.List.Infix
import Workflows.Failure

/-!
# Failures that quote others

The failure of a parent quotes the id of the child that has failed, and the failure of the child.  The table searches
the whole text, so a keyword is found in it where it stands in the failure of the child, but also where it stands in
the id.  No keyword reaches over a blank of the words between them.

* `Text.lowercase_blank`            a text is put into small letters on each side of a blank
* `breaks`                          a keyword, broken at one of its blanks
* `quoted`                          the failure of a parent, which quotes its child

Main statement: a rule matches a quotation if it matches the error or the id that is quoted
(`FailureRule.matchesText_quoted`).
-/

namespace Workflows

/-! ## small letters -/

namespace Text

theorem lowerChars_cons (before : List Char) (c : Char) (cs : List Char) : lowerChars before (c :: cs) =
    (if c.toNat = 0x3A3 then
      [if nextIsCased before && !nextIsCased cs then Char.ofNat 0x3C2 else Char.ofNat 0x3C3]
    else lowerChar c) ++ lowerChars (c :: before) cs := rfl

/-- a text without capitals -/
theorem lowerChars_small {cs : List Char} (h : ∀ c ∈ cs, c.toNat < 128 ∧ c.toLower = c) (before : List Char) :
    lowerChars before cs = cs := by
  induction cs generalizing before with
  | nil => rfl
  | cons c cs ih =>
    obtain ⟨hascii, hlower⟩ := h c List.mem_cons_self
    have hsigma : ¬ c.toNat = 0x3A3 := by omega
    have hrest := ih (fun d hd => h d (List.mem_cons_of_mem c hd)) (c :: before)
    rw [lowerChars_cons, hrest, if_neg hsigma, lowerChar, if_pos hascii, hlower]
    rfl

theorem small_of_isDigit {c : Char} (h : c.isDigit) : c.toNat < 128 ∧ c.toLower = c := by
  rw [Char.isDigit, Bool.and_eq_true, decide_eq_true_eq, decide_eq_true_eq] at h
  have hnine : c.toNat ≤ 57 := UInt32.le_iff_toNat_le.mp h.2
  refine ⟨by omega, dif_neg fun hcapital => ?_⟩
  have hcode : 65 ≤ c.toNat := UInt32.le_iff_toNat_le.mp hcapital.1
  omega

theorem nextIsCased_blank (cs ds : List Char) : nextIsCased (cs ++ ' ' :: ds) = nextIsCased cs := by
  have hignorable : isCaseIgnorable ' ' = false := by decide +kernel
  have hcased : isCased ' ' = false := by decide +kernel
  unfold nextIsCased
  induction cs with
  | nil =>
    rw [List.nil_append, List.dropWhile_cons, hignorable, if_neg Bool.false_ne_true]
    exact hcased
  | cons c cs ih =>
    rw [List.cons_append, List.dropWhile_cons, List.dropWhile_cons]
    cases isCaseIgnorable c with
    | true => exact ih
    | false => rfl

/-- a sigma does not see what stands before a blank -/
theorem lowerChars_before_blank (cs before ds : List Char) :
    lowerChars (before ++ ' ' :: ds) cs = lowerChars before cs := by
  induction cs generalizing before with
  | nil => rfl
  | cons c cs ih =>
    have hrest := ih (c :: before)
    rw [List.cons_append] at hrest
    rw [lowerChars_cons, lowerChars_cons, nextIsCased_blank, hrest]

theorem lowerChars_blank (cs before ds : List Char) :
    lowerChars before (cs ++ ' ' :: ds) = lowerChars before cs ++ ' ' :: lowerChars [] ds := by
  induction cs generalizing before with
  | nil =>
    have hrest := lowerChars_before_blank ds [] before
    rw [List.nil_append] at hrest
    have hhere : lowerChars before (' ' :: ds) = ' ' :: lowerChars (' ' :: before) ds := rfl
    rw [List.nil_append, hhere, hrest]
    rfl
  | cons c cs ih =>
    rw [List.cons_append, lowerChars_cons, lowerChars_cons, nextIsCased_blank, ih, List.append_assoc]

theorem lowercase_blank (s t : String) : lowercase (s ++ " " ++ t) = lowercase s ++ " " ++ lowercase t := by
  apply String.toList_injective
  simp only [lowercase, String.toList_append, String.toList_ofList, List.append_assoc]
  exact lowerChars_blank s.toList [] t.toList

end Text

/-! ## search -/

theorem Text.occursInChars_iff {needle cs : List Char} : occursInChars needle cs = true ↔ needle <:+: cs := by
  induction cs with
  | nil => rw [occursInChars, List.isEmpty_iff, List.infix_nil]
  | cons c cs ih => rw [occursInChars, Bool.or_eq_true, List.isPrefixOf_iff_prefix, ih, List.infix_cons_iff]

/-- the two sides of each blank in a text -/
def breaks : List Char → List (List Char × List Char)
  | [] => []
  | c :: cs => (if c = ' ' then [([], cs)] else []) ++ (breaks cs).map fun b => (c :: b.1, b.2)

theorem mem_breaks {cs ds : List Char} : (cs, ds) ∈ breaks (cs ++ ' ' :: ds) := by
  induction cs with
  | nil => exact List.mem_append_left _ (List.mem_singleton.mpr rfl)
  | cons c cs ih => exact List.mem_append_right _ (List.mem_map.mpr ⟨(cs, ds), ih, rfl⟩)

/-- what stands in a text stands on one side of a blank, or reaches over it -/
theorem infix_blank {k cs ds : List Char} (h : ∀ b ∈ breaks k, ¬ (b.1 <:+ cs ∧ b.2 <+: ds)) (hk : k.head? ≠ some ' ') :
    k <:+: cs ++ ' ' :: ds ↔ k <:+: cs ∨ k <:+: ds := by
  rw [List.infix_append_iff, List.infix_cons_iff]
  constructor
  · rintro (hleft | (hblank | hright) | ⟨ks, ls, rfl, hks, hls⟩)
    · exact .inl hleft
    · rcases List.prefix_cons_iff.mp hblank with rfl | ⟨t, rfl, -⟩
      · exact .inl List.nil_infix
      · exact absurd rfl hk
    · exact .inr hright
    · rcases List.prefix_cons_iff.mp hls with rfl | ⟨t, rfl, ht⟩
      · rw [List.append_nil]
        exact .inl hks.isInfix
      · exact absurd ⟨hks, ht⟩ (h _ mem_breaks)
  · rintro (hleft | hright)
    · exact .inl hleft
    · exact .inr (.inl (.inr hright))

/-! ## the table -/

/-- A keyword that is not found because of the words of a quotation. -/
structure Unquoted (k : List Char) : Prop where
  head : k.head? ≠ some ' '
  first : ¬ k <:+: "subprocess".toList
  last : ¬ k <:+: "failed:".toList
  breaks : ∀ b ∈ breaks k, ¬ b.1 <:+ "subprocess".toList ∧ ¬ b.1 <:+ "failed:".toList ∧ ¬ b.2.take 2 <+: "fa".toList

theorem keywords_unquoted {rule : FailureRule} {k : String} (hrule : rule ∈ failureRules) (hk : k ∈ rule.keywords) :
    Unquoted k.toList := by
  have hall : ∀ rule ∈ failureRules, ∀ k ∈ rule.keywords, (k.toList.head? ≠ some ' ' ∧
      Text.occursIn k "subprocess" = false ∧ Text.occursIn k "failed:" = false) ∧
      ∀ b ∈ breaks k.toList, ¬ b.1 <:+ "subprocess".toList ∧ ¬ b.1 <:+ "failed:".toList ∧
        ¬ b.2.take 2 <+: "fa".toList := by
    decide +kernel
  obtain ⟨⟨hhead, hfirst, hlast⟩, hbreaks⟩ := hall rule hrule k hk
  refine ⟨hhead, fun h => ?_, fun h => ?_, hbreaks⟩
  · rw [Text.occursIn, Text.occursInChars_iff.mpr h] at hfirst
    cases hfirst
  · rw [Text.occursIn, Text.occursInChars_iff.mpr h] at hlast
    cases hlast

/-- a keyword stands in a quotation where it stands in the id or in the error that are quoted -/
theorem Unquoted.infix_iff {k : List Char} (h : Unquoted k) (id e : List Char) :
    k <:+: "subprocess".toList ++ ' ' :: (id ++ ' ' :: ("failed:".toList ++ ' ' :: e)) ↔ k <:+: id ∨ k <:+: e := by
  rw [infix_blank (fun b hb hover => (h.breaks b hb).1 hover.1) h.head,
    infix_blank (fun b hb hover => (h.breaks b hb).2.2 ?_) h.head,
    infix_blank (fun b hb hover => (h.breaks b hb).2.1 hover.1) h.head]
  · rw [or_iff_right h.first, or_iff_right h.last]
  · exact hover.2.take 2

/-- the error of a parent, which quotes its child -/
def quoted (id error : String) : String := "Subprocess " ++ id ++ " failed: " ++ error

theorem lowercase_quoted (id error : String) : (Text.lowercase (quoted id error)).toList =
    "subprocess".toList ++ ' ' :: ((Text.lowercase id).toList ++ ' ' :: ("failed:".toList ++ ' ' ::
      (Text.lowercase error).toList)) := by
  have hwords : quoted id error = "Subprocess" ++ " " ++ (id ++ " " ++ ("failed:" ++ " " ++ error)) := by
    apply String.toList_injective
    simp [quoted, String.toList_append]
  have hfirst : Text.lowercase "Subprocess" = "subprocess" := by decide +kernel
  have hlast : Text.lowercase "failed:" = "failed:" := by decide +kernel
  rw [hwords, Text.lowercase_blank, Text.lowercase_blank, Text.lowercase_blank, hfirst, hlast]
  simp only [String.toList_append, List.append_assoc]
  rfl

/-- **A rule matches the failure of a parent** if it matches the failure of the child, and also if it matches the id
of the child. -/
theorem FailureRule.matchesText_quoted {rule : FailureRule} (hrule : rule ∈ failureRules) (id error : String) :
    rule.matchesText (Text.lowercase (quoted id error)) =
      (rule.matchesText (Text.lowercase id) || rule.matchesText (Text.lowercase error)) := by
  rw [Bool.eq_iff_iff, Bool.or_eq_true]
  simp only [matchesText, List.any_eq_true, Text.occursIn, Text.occursInChars_iff, lowercase_quoted]
  constructor
  · rintro ⟨k, hk, h⟩
    rcases ((keywords_unquoted hrule hk).infix_iff _ _).mp h with h | h
    · exact .inl ⟨k, hk, h⟩
    · exact .inr ⟨k, hk, h⟩
  · rintro (⟨k, hk, h⟩ | ⟨k, hk, h⟩)
    · exact ⟨k, hk, ((keywords_unquoted hrule hk).infix_iff _ _).mpr (.inl h)⟩
    · exact ⟨k, hk, ((keywords_unquoted hrule hk).infix_iff _ _).mpr (.inr h)⟩

/-- quotations match alike where the ids and the errors that are quoted do -/
theorem matchesText_quoted_congr {id id' error error' : String}
    (hid : ∀ rule ∈ failureRules, rule.matchesText (Text.lowercase id') = rule.matchesText (Text.lowercase id))
    (herror : ∀ rule ∈ failureRules,
      rule.matchesText (Text.lowercase error') = rule.matchesText (Text.lowercase error)) :
    ∀ rule ∈ failureRules, rule.matchesText (Text.lowercase (quoted id' error')) =
      rule.matchesText (Text.lowercase (quoted id error)) := by
  intro rule hrule
  rw [rule.matchesText_quoted hrule, rule.matchesText_quoted hrule, hid rule hrule, herror rule hrule]

end Workflows
