import Workflows.Expr.Template
import Workflows.Proofs.Expr.Words

/-!
# What a text observes

The value of a text depends on few of the variables: those that its placeholders look up, and those whose names
are words of the text once the placeholders are filled in.  Nothing is said of the words of the text as it is
written, since a placeholder may fill in a word.

* `Vars.AgreeOn`        two maps of variables bind some names alike;
* `Expr.names`          the names in a tree;
* `parse?_names`        they are among the names in the tokens that the tree is read from;
* `Template.lookedUp`   the names that the placeholders of a template look up;
* `fill_congr`          what a template is filled with depends on these alone;
* `fill_unresolved`     placeholders that are not found are kept;
* `namesIn`             the names among the words of a text.

Main statements: `evaluateText_congr`, and for texts without placeholders `evaluateText_names`, where the names are
those of the text itself.
-/

namespace Workflows

variable {vs ws : Vars}

/-! ## Variables that agree -/

/-- both maps bind each of the names alike: to one value, or neither binds it -/
def Vars.AgreeOn (names : List String) (vs ws : Vars) : Prop :=
  ∀ name ∈ names, Dict.get? vs name = Dict.get? ws name

namespace Vars.AgreeOn
variable {names more : List String}

theorem mono (h : AgreeOn names vs ws) (hsub : more ⊆ names) : AgreeOn more vs ws :=
  fun name hname => h name (hsub hname)

theorem left (h : AgreeOn (names ++ more) vs ws) : AgreeOn names vs ws :=
  h.mono (List.subset_append_left names more)

theorem right (h : AgreeOn (names ++ more) vs ws) : AgreeOn more vs ws :=
  h.mono (List.subset_append_right names more)

end Vars.AgreeOn

/-! ## Expressions -/

namespace Expr

mutual
/-- the names in an expression -/
def names : Expr → List String
  | .lit _ => []
  | .var name => [name]
  | .not e => names e
  | .neg e => names e
  | .and a b => names a ++ names b
  | .or a b => names a ++ names b
  | .arith _ a b => names a ++ names b
  | .chain first links => names first ++ linkNames links

/-- the names in the links of a chain -/
def linkNames : List (Cmp × Expr) → List String
  | [] => []
  | (_, e) :: links => names e ++ linkNames links
end

mutual
/-- the value of an expression depends on the variables that it names -/
theorem eval?_congr (e : Expr) (h : Vars.AgreeOn e.names vs ws) : eval? vs e = eval? ws e := by
  cases e with
  | lit v => rfl
  | var name => exact h name (List.mem_singleton_self name)
  | not e => rw [eval?, eval?, eval?_congr e h]
  | neg e => rw [eval?, eval?, eval?_congr e h]
  | and a b => rw [eval?, eval?, eval?_congr a h.left, eval?_congr b h.right]
  | or a b => rw [eval?, eval?, eval?_congr a h.left, eval?_congr b h.right]
  | arith op a b => rw [eval?, eval?, eval?_congr a h.left, eval?_congr b h.right]
  | chain first links =>
    rw [eval?, eval?, eval?_congr first h.left]
    cases eval? ws first with
    | none => rfl
    | some v => exact evalLinks?_congr v links h.right

theorem evalLinks?_congr (left : Json) (links : List (Cmp × Expr)) (h : Vars.AgreeOn (linkNames links) vs ws) :
    evalLinks? vs left links = evalLinks? ws left links := by
  match links with
  | [] => rfl
  | (op, e) :: links =>
    rw [evalLinks?, evalLinks?, eval?_congr e h.left]
    cases eval? ws e with
    | none => rfl
    | some right => simp only [evalLinks?_congr right links h.right]
end

/-! ## The reader

A reader takes its tree from the front of the tokens and leaves the others.  Both are followed inside one list of
tokens: the names of the tree are names in it, and what is left belongs to it. -/

section Reader
variable {all r : List Token} {e a b : Expr}

/-- all names in an expression are among the tokens -/
def NamedIn (all : List Token) (e : Expr) : Prop := ∀ name ∈ e.names, Token.name name ∈ all

theorem NamedIn.append (ha : NamedIn all a) (hb : NamedIn all b) (he : e.names = a.names ++ b.names) :
    NamedIn all e := by
  intro name hname
  rw [he] at hname
  exact (List.mem_append.mp hname).elim (ha name) (hb name)

/-- what a reader answers has its names among the tokens, and leaves some of the tokens -/
def Reads (all : List Token) (answer : Option (Expr × List Token)) : Prop :=
  ∀ e r, answer = some (e, r) → NamedIn all e ∧ r ⊆ all

theorem Reads.none : Reads all none := fun _ _ h => nomatch h

theorem Reads.some (he : NamedIn all e) (hr : r ⊆ all) : Reads all (some (e, r)) := by
  intro e' r' h
  cases h
  exact ⟨he, hr⟩

theorem Reads.map {answer : Option (Expr × List Token)} {f : Expr → Expr} (h : Reads all answer)
    (hf : ∀ e, (f e).names = e.names) : Reads all (answer.map fun p => (f p.1, p.2)) := by
  intro e r heq
  obtain ⟨⟨e', r'⟩, hp, he⟩ := Option.map_eq_some_iff.mp heq
  cases he
  obtain ⟨hnamed, hr⟩ := h e' r' hp
  exact ⟨fun name hname => hnamed name (hf e' ▸ hname), hr⟩

theorem literal?_names {t : Token} (h : literal? t = some e) : e.names = [] := by
  cases t with
  | double x =>
    rw [literal?] at h
    split at h
    · cases h; rfl
    · cases h
  | int | text | yes | no | null => cases h; rfl
  | name | and | or | not | arith | cmp | lparen | rparen => cases h

mutual
theorem parseOr_reads (fuel room : Nat) {ts : List Token} (hts : ts ⊆ all) : Reads all (parseOr fuel room ts) := by
  cases fuel with
  | zero => rw [parseOr]; exact .none
  | succ fuel =>
    rw [parseOr]
    split
    · next a r ha =>
      obtain ⟨hna, hr⟩ := parseAnd_reads fuel room hts a r ha
      exact parseOrRest_reads fuel room hna hr
    · exact .none

theorem parseOrRest_reads (fuel room : Nat) {a : Expr} {ts : List Token} (ha : NamedIn all a) (hts : ts ⊆ all) :
    Reads all (parseOrRest fuel room a ts) := by
  cases fuel with
  | zero => rw [parseOrRest]; exact .none
  | succ fuel =>
    unfold parseOrRest
    split
    · contradiction
    · split
      · next b r hb =>
        obtain ⟨hnb, hr⟩ := parseAnd_reads _ _ (List.subset_of_cons_subset hts) b r hb
        exact parseOrRest_reads _ _ (ha.append hnb rfl) hr
      · exact .none
    · exact .some ha hts

theorem parseAnd_reads (fuel room : Nat) {ts : List Token} (hts : ts ⊆ all) : Reads all (parseAnd fuel room ts) := by
  cases fuel with
  | zero => rw [parseAnd]; exact .none
  | succ fuel =>
    rw [parseAnd]
    split
    · next a r ha =>
      obtain ⟨hna, hr⟩ := parseNot_reads fuel room hts a r ha
      exact parseAndRest_reads fuel room hna hr
    · exact .none

theorem parseAndRest_reads (fuel room : Nat) {a : Expr} {ts : List Token} (ha : NamedIn all a) (hts : ts ⊆ all) :
    Reads all (parseAndRest fuel room a ts) := by
  cases fuel with
  | zero => rw [parseAndRest]; exact .none
  | succ fuel =>
    unfold parseAndRest
    split
    · contradiction
    · split
      · next b r hb =>
        obtain ⟨hnb, hr⟩ := parseNot_reads _ _ (List.subset_of_cons_subset hts) b r hb
        exact parseAndRest_reads _ _ (ha.append hnb rfl) hr
      · exact .none
    · exact .some ha hts

theorem parseNot_reads (fuel room : Nat) {ts : List Token} (hts : ts ⊆ all) : Reads all (parseNot fuel room ts) := by
  cases fuel with
  | zero => rw [parseNot]; exact .none
  | succ fuel =>
    unfold parseNot
    split
    · contradiction
    · split
      · exact .none
      · next room => exact (parseNot_reads _ _ (List.subset_of_cons_subset hts)).map fun e => rfl
    · exact parseChain_reads _ _ hts

theorem parseChain_reads (fuel room : Nat) {ts : List Token} (hts : ts ⊆ all) : Reads all (parseChain fuel room ts) := by
  cases fuel with
  | zero => rw [parseChain]; exact .none
  | succ fuel =>
    rw [parseChain]
    split
    · next a r ha =>
      obtain ⟨hna, hr⟩ := parseSum_reads fuel room hts a r ha
      split
      · next r' hlinks => exact .some hna (parseLinks_reads fuel room hr hlinks).2
      · next link links r' hlinks =>
        obtain ⟨hnl, hr'⟩ := parseLinks_reads fuel room hr hlinks
        refine .some ?_ hr'
        intro name hname
        rw [names] at hname
        exact (List.mem_append.mp hname).elim (hna name) (hnl name)
      · exact .none
    · exact .none

theorem parseLinks_reads (fuel room : Nat) {ts : List Token} (hts : ts ⊆ all) {links : List (Cmp × Expr)} {r : List Token}
    (h : parseLinks fuel room ts = some (links, r)) :
    (∀ name ∈ linkNames links, Token.name name ∈ all) ∧ r ⊆ all := by
  cases fuel with
  | zero => rw [parseLinks] at h; cases h
  | succ fuel =>
    unfold parseLinks at h
    split at h
    · contradiction
    · next op ts =>
      split at h
      · next b r' hb =>
        obtain ⟨hnb, hr'⟩ := parseSum_reads _ _ (List.subset_of_cons_subset hts) b r' hb
        obtain ⟨⟨links', r''⟩, hp, he⟩ := Option.map_eq_some_iff.mp h
        cases he
        obtain ⟨hnl, hr''⟩ := parseLinks_reads _ _ hr' hp
        refine ⟨?_, hr''⟩
        intro name hname
        rw [linkNames] at hname
        exact (List.mem_append.mp hname).elim (hnb name) (hnl name)
      · cases h
    · cases h
      refine ⟨?_, hts⟩
      intro name hname
      rw [linkNames] at hname
      cases hname

theorem parseSum_reads (fuel room : Nat) {ts : List Token} (hts : ts ⊆ all) : Reads all (parseSum fuel room ts) := by
  cases fuel with
  | zero => rw [parseSum]; exact .none
  | succ fuel =>
    rw [parseSum]
    split
    · next a r ha =>
      obtain ⟨hna, hr⟩ := parseProduct_reads fuel room hts a r ha
      exact parseSumRest_reads fuel room hna hr
    · exact .none

theorem parseSumRest_reads (fuel room : Nat) {a : Expr} {ts : List Token} (ha : NamedIn all a) (hts : ts ⊆ all) :
    Reads all (parseSumRest fuel room a ts) := by
  cases fuel with
  | zero => rw [parseSumRest]; exact .none
  | succ fuel =>
    unfold parseSumRest
    split
    · contradiction
    · split
      · split
        · next b r hb =>
          obtain ⟨hnb, hr⟩ := parseProduct_reads _ _ (List.subset_of_cons_subset hts) b r hb
          exact parseSumRest_reads _ _ (ha.append hnb rfl) hr
        · exact .none
      · exact .some ha hts
    · exact .some ha hts

theorem parseProduct_reads (fuel room : Nat) {ts : List Token} (hts : ts ⊆ all) : Reads all (parseProduct fuel room ts) := by
  cases fuel with
  | zero => rw [parseProduct]; exact .none
  | succ fuel =>
    rw [parseProduct]
    split
    · next a r ha =>
      obtain ⟨hna, hr⟩ := parseSign_reads fuel room hts a r ha
      exact parseProductRest_reads fuel room hna hr
    · exact .none

theorem parseProductRest_reads (fuel room : Nat) {a : Expr} {ts : List Token} (ha : NamedIn all a) (hts : ts ⊆ all) :
    Reads all (parseProductRest fuel room a ts) := by
  cases fuel with
  | zero => rw [parseProductRest]; exact .none
  | succ fuel =>
    unfold parseProductRest
    split
    · contradiction
    · split
      · exact .some ha hts
      · split
        · next b r hb =>
          obtain ⟨hnb, hr⟩ := parseSign_reads _ _ (List.subset_of_cons_subset hts) b r hb
          exact parseProductRest_reads _ _ (ha.append hnb rfl) hr
        · exact .none
    · exact .some ha hts

theorem parseSign_reads (fuel room : Nat) {ts : List Token} (hts : ts ⊆ all) : Reads all (parseSign fuel room ts) := by
  cases fuel with
  | zero => rw [parseSign]; exact .none
  | succ fuel =>
    unfold parseSign
    split
    · contradiction
    · split
      · exact .none
      · next room => exact (parseSign_reads _ _ (List.subset_of_cons_subset hts)).map fun e => rfl
    · exact parseSign_reads _ _ (List.subset_of_cons_subset hts)
    · exact parseOperand_reads _ _ hts

theorem parseOperand_reads (fuel room : Nat) {ts : List Token} (hts : ts ⊆ all) : Reads all (parseOperand fuel room ts) := by
  cases fuel with
  | zero => rw [parseOperand]; exact .none
  | succ fuel =>
    unfold parseOperand
    split
    · contradiction
    · exact .none
    · exact .none
    · next s ts _ =>
      refine .some ?_ (List.subset_of_cons_subset hts)
      intro name hname
      rw [List.mem_singleton.mp hname]
      exact hts List.mem_cons_self
    · split
      · exact .none
      · next room =>
        split
        · next e r he =>
          obtain ⟨hne, hr⟩ := parseOr_reads _ _ (List.subset_of_cons_subset hts) e _ he
          exact .some hne (List.subset_of_cons_subset hr)
        · exact .none
    · next t ts _ _ =>
      intro e r h
      obtain ⟨e', hlit, he⟩ := Option.map_eq_some_iff.mp h
      cases he
      refine ⟨?_, List.subset_of_cons_subset hts⟩
      intro name hname
      rw [literal?_names hlit] at hname
      cases hname
end

/-- the names in a tree are names among the tokens that it is read from -/
theorem parse?_names {ts : List Token} (h : parse? ts = some e) : NamedIn ts e := by
  unfold parse? at h
  split at h
  · next e' hor =>
    cases h
    exact (parseOr_reads _ _ (List.Subset.refl ts) e [] hor).1
  · cases h

end Reader
end Expr

/-! ## Texts -/

/-- the name that a token is -/
def Token.name? : Token → Option String
  | .name s => some s
  | _ => none

/-- the names among the words of a text; none where it cannot be cut into tokens -/
def namesIn (text : String) : List String := ((Token.tokens? text).getD []).filterMap Token.name?

theorem read?_names {s : String} {e : Expr} (h : Expr.read? s = some e) : e.names ⊆ namesIn s := by
  obtain ⟨ts, hts, hparse⟩ := Option.bind_eq_some_iff.mp h
  intro name hname
  have hmem : Token.name name ∈ ts := Expr.parse?_names hparse name hname
  rw [namesIn, hts]
  exact List.mem_filterMap.mpr ⟨.name name, hmem, rfl⟩

theorem evaluateFilled?_congr {s : String} (h : Vars.AgreeOn (namesIn s) vs ws) :
    evaluateFilled? vs s = evaluateFilled? ws s := by
  unfold evaluateFilled?
  split
  · rfl
  · cases hread : Expr.read? s with
    | none => rfl
    | some e => exact Expr.eval?_congr e (h.mono (read?_names hread))

/-! ## Placeholders -/

/-- the variables that a name may stand for: that of the whole name, and that of the first step of a path -/
def pathNames (name : String) : List String := name :: (Json.pathSteps name).take 1

theorem lookup?_congr {name : String} (h : Vars.AgreeOn (pathNames name) vs ws) :
    vs.lookup? name = ws.lookup? name := by
  have hwhole : Dict.get? vs name = Dict.get? ws name := h name List.mem_cons_self
  unfold Vars.lookup?
  rw [hwhole]
  split
  · rfl
  · cases hsteps : Json.pathSteps name with
    | nil => rfl
    | cons first steps =>
      have hfirst : Dict.get? vs first = Dict.get? ws first := by
        refine h first (List.mem_cons_of_mem name ?_)
        rw [hsteps]
        exact List.mem_singleton_self first
      simp only [hfirst]

namespace Template

/-- the names in the placeholders of a template, up to one that is not closed -/
def placeholders (cs : List Char) : List String :=
  match cs with
  | [] => []
  | '$' :: '\x7b' :: r =>
    match h : splitClose r with
    | some (name, r') =>
      have : r'.length < r.length + 1 + 1 := by have := length_splitClose h; omega
      Text.trim (String.ofList name) :: placeholders r'
    | none => []
  | _ :: r => placeholders r
termination_by cs.length

/-- the variables that the placeholders of a template look up -/
def lookedUp (text : String) : List String := (placeholders text.toList).flatMap pathNames

theorem filling_congr {name : List Char}
    (h : vs.lookup? (Text.trim (String.ofList name)) = ws.lookup? (Text.trim (String.ofList name))) :
    filling vs name = filling ws name := by
  unfold filling
  rw [h]

theorem fillChars_closed {name r r' : List Char} (h : splitClose r = some (name, r')) :
    fillChars vs ('$' :: '\x7b' :: r) = filling vs name ++ fillChars vs r' := by
  rw [fillChars]
  split
  · next heq => cases h.symm.trans heq; rfl
  · next heq => cases h.symm.trans heq

theorem fillChars_unclosed {r : List Char} (h : splitClose r = none) :
    fillChars vs ('$' :: '\x7b' :: r) = '$' :: '\x7b' :: r := by
  rw [fillChars]
  split
  · next heq => cases h.symm.trans heq
  · rfl

theorem fillChars_cons {c : Char} {cs : List Char} (h : ∀ r, c = '$' → cs = '\x7b' :: r → False) :
    fillChars vs (c :: cs) = c :: fillChars vs cs := by
  rw [fillChars]
  exact h

theorem fillChars_congr (cs : List Char) (h : ∀ name ∈ placeholders cs, vs.lookup? name = ws.lookup? name) :
    fillChars vs cs = fillChars ws cs := by
  fun_induction placeholders cs with
  | case1 => rw [fillChars, fillChars]
  | case2 r name r' hsplit hlt ih =>
    have hname := h _ List.mem_cons_self
    have hrest := ih fun other hother => h other (List.mem_cons_of_mem _ hother)
    rw [fillChars_closed hsplit, fillChars_closed hsplit, filling_congr hname, hrest]
  | case3 r hsplit => rw [fillChars_unclosed hsplit, fillChars_unclosed hsplit]
  | case4 c r hne ih => rw [fillChars_cons hne, fillChars_cons hne, ih h]

/-- a template is filled in alike where its placeholders are looked up alike -/
theorem fill_congr {text : String} (h : ∀ name ∈ placeholders text.toList, vs.lookup? name = ws.lookup? name) :
    fill vs text = fill ws text := by
  unfold fill
  rw [fillChars_congr _ h]

theorem splitClose_eq {cs name r : List Char} (h : splitClose cs = some (name, r)) : cs = name ++ '\x7d' :: r := by
  fun_induction splitClose cs generalizing name with
  | case1 => cases h
  | case2 => cases h; rfl
  | case3 c cs _ ih =>
    obtain ⟨⟨u, v⟩, hp, he⟩ := Option.map_eq_some_iff.mp h
    cases he
    rw [ih hp, List.cons_append]

/-- placeholders that are not found are kept as they are written -/
theorem fillChars_unresolved (cs : List Char) (h : ∀ name ∈ placeholders cs, vs.lookup? name = none) :
    fillChars vs cs = cs := by
  fun_induction placeholders cs with
  | case1 => rw [fillChars]
  | case2 r name r' hsplit _ ih =>
    have hname := h _ List.mem_cons_self
    have hrest := ih fun other hother => h other (List.mem_cons_of_mem _ hother)
    rw [fillChars_closed hsplit, filling, hname, hrest, splitClose_eq hsplit]
    simp
  | case3 r hsplit => exact fillChars_unclosed hsplit
  | case4 c r hne ih => rw [fillChars_cons hne, ih h]

theorem fill_unresolved {text : String} (h : ∀ name ∈ placeholders text.toList, vs.lookup? name = none) :
    fill vs text = text := by
  rw [fill, fillChars_unresolved _ h, String.ofList_toList]

theorem placeholders_eq_nil {cs : List Char} (h : Text.occursInChars ['$', '\x7b'] cs = false) : placeholders cs = [] := by
  fun_induction placeholders cs with
  | case1 => rfl
  | case2 => simp [Text.occursInChars] at h
  | case3 => rfl
  | case4 c r _ ih =>
    rw [Text.occursInChars, Bool.or_eq_false_iff] at h
    exact ih h.2

/-- a text without placeholders is filled in already -/
theorem fill_of_bare {text : String} (h : Text.occursIn "$\x7b" text = false) : fill vs text = text :=
  fill_unresolved fun name hname => by
    have hnil : placeholders text.toList = [] := placeholders_eq_nil h
    rw [hnil] at hname
    cases hname

theorem lookup?_of_lookedUp {text : String} (h : Vars.AgreeOn (lookedUp text) vs ws) :
    ∀ name ∈ placeholders text.toList, vs.lookup? name = ws.lookup? name := by
  intro name hname
  refine lookup?_congr (h.mono fun path hpath => ?_)
  exact List.mem_flatMap.mpr ⟨name, hname, hpath⟩

end Template

/-- The variables that the value of a text depends on: those that its placeholders look up, and those that the filled
text names. -/
def observed (vs : Vars) (text : String) : List String :=
  Template.lookedUp text ++ namesIn (Text.trim (Template.fill vs text))

/-- the value of a text once it is filled in -/
theorem evaluateText_of_fill {text : String} (hfill : Template.fill vs text = Template.fill ws text)
    (h : Vars.AgreeOn (namesIn (Text.trim (Template.fill vs text))) vs ws) :
    evaluateText vs text = evaluateText ws text := by
  have hvalue := evaluateFilled?_congr h
  unfold evaluateText
  simp only [← hfill, hvalue]

/-- **The value of a text is the same under variables that agree on those it looks up and on those that it names once
it is filled in.** -/
theorem evaluateText_congr {text : String} (h : Vars.AgreeOn (observed vs text) vs ws) :
    evaluateText vs text = evaluateText ws text :=
  evaluateText_of_fill (Template.fill_congr (Template.lookup?_of_lookedUp h.left)) h.right

/-! ## Texts without placeholders -/

theorem namesIn_trim (text : String) : namesIn (Text.trim text) = namesIn text := by
  rw [namesIn, Token.tokens?, Text.trim, String.toList_ofList, Token.lexAll_trimChars]
  rfl

/-- **The value of a text without placeholders is the same under variables that agree on the names in it.** -/
theorem evaluateText_names {text : String} (hbare : Text.occursIn "$\x7b" text = false)
    (h : Vars.AgreeOn (namesIn text) vs ws) : evaluateText vs text = evaluateText ws text := by
  have hfill : ∀ vars, Template.fill vars text = text := fun vars => Template.fill_of_bare hbare
  refine evaluateText_of_fill (by rw [hfill, hfill]) ?_
  rw [hfill, namesIn_trim]
  exact h

namespace Sample

/-- an amount and a code -/
def opened : Vars := [("amount", .int 1500), ("code", .str "0000")]

/-- the same amount, and no code -/
def locked : Vars := [("amount", .int 1500)]

end Sample

/-- a text tells nothing of a variable that it only quotes -/
theorem evaluateText_names_quoted :
    Text.occursIn "$\x7b" "amount > 1000 and 'code' != 'open'" = false ∧
      namesIn "amount > 1000 and 'code' != 'open'" = ["amount"] ∧
      Vars.AgreeOn (namesIn "amount > 1000 and 'code' != 'open'") Sample.opened Sample.locked ∧
      evaluateText Sample.opened "amount > 1000 and 'code' != 'open'" =
        evaluateText Sample.locked "amount > 1000 and 'code' != 'open'" := by
  have hbare : Text.occursIn "$\x7b" "amount > 1000 and 'code' != 'open'" = false := by decide +kernel
  have hnames : namesIn "amount > 1000 and 'code' != 'open'" = ["amount"] := by decide +kernel
  have hagree : Vars.AgreeOn (namesIn "amount > 1000 and 'code' != 'open'") Sample.opened Sample.locked := by
    rw [hnames]
    exact List.forall_mem_singleton.mpr rfl
  exact ⟨hbare, hnames, hagree, evaluateText_names hbare hagree⟩

end Workflows
