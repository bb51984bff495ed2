import Mathlib.Data.List.Infix
import Workflows.Definition.Routing

/-!
# Branches of a decision

A text names a branch with a word that stands by itself in it, between blanks and signs or at its ends.  A decision
follows the edges that name the branch it has chosen, and an edge that names none is never followed.

* `Text.StandsIn`       a word with no letter and no digit beside it
* `Names`, `Speaks`     a text with one of some words, and a text that speaks for a branch
* `Edge.branchText?`    the text that decides about an edge

Main statement: the edges that leave a decision are those of its two branches and those that are never followed, and
a route is followed by all the edges of one branch (`nextNodes_partition`).
-/

namespace Workflows

/-! ## words -/

namespace Text

/-- A list of characters begins with a part: up to its end, or to the first separator. -/
def BeginsWith (sep : Char → Bool) (w cs : List Char) : Prop :=
  ∃ post, cs = w ++ post ∧ (∀ c ∈ w, sep c = false) ∧ ∀ c, post.head? = some c → sep c

theorem beginsWith_nil {sep : Char → Bool} {w : List Char} : BeginsWith sep w [] ↔ w = [] := by
  constructor
  · rintro ⟨post, h, -, -⟩
    exact (List.append_eq_nil_iff.mp h.symm).1
  · rintro rfl
    exact ⟨[], rfl, nofun, nofun⟩

theorem beginsWith_cons_of_sep {sep : Char → Bool} {w cs : List Char} {c : Char} (hc : sep c) :
    BeginsWith sep w (c :: cs) ↔ w = [] := by
  constructor
  · rintro ⟨post, h, hw, -⟩
    rcases List.append_eq_cons_iff.mp h.symm with ⟨rfl, -⟩ | ⟨v, rfl, -⟩
    · rfl
    · rw [hw c List.mem_cons_self] at hc
      cases hc
  · rintro rfl
    refine ⟨c :: cs, rfl, nofun, ?_⟩
    rintro _ ⟨⟩
    exact hc

theorem beginsWith_cons {sep : Char → Bool} {w cs : List Char} {c : Char} (hc : sep c = false) :
    BeginsWith sep w (c :: cs) ↔ ∃ v, w = c :: v ∧ BeginsWith sep v cs := by
  constructor
  · rintro ⟨post, h, hw, hpost⟩
    rcases List.append_eq_cons_iff.mp h.symm with ⟨-, rfl⟩ | ⟨v, rfl, rfl⟩
    · rw [hpost c rfl] at hc
      cases hc
    · exact ⟨v, rfl, post, rfl, fun d hd => hw d (List.mem_cons_of_mem c hd), hpost⟩
  · rintro ⟨v, rfl, post, rfl, hv, hpost⟩
    exact ⟨post, rfl, List.forall_mem_cons.mpr ⟨hc, hv⟩, hpost⟩

/-- the first part of a list is what it begins with, and each other part stands behind a separator -/
theorem partsBy_eq_cons (sep : Char → Bool) (cs : List Char) : ∃ p ps, partsBy sep cs = p :: ps ∧
    (∀ w, w = p ↔ BeginsWith sep w cs) ∧
    ∀ w, w ∈ ps ↔ ∃ a rest, a :: rest <:+ cs ∧ sep a ∧ BeginsWith sep w rest := by
  induction cs with
  | nil =>
    refine ⟨[], [], rfl, fun w => beginsWith_nil.symm, fun w => ⟨nofun, ?_⟩⟩
    rintro ⟨a, rest, h, -, -⟩
    cases List.suffix_nil.mp h
  | cons c cs ih =>
    obtain ⟨p, ps, hparts, hp, hps⟩ := ih
    by_cases hc : sep c
    · refine ⟨[], p :: ps, ?_, fun w => (beginsWith_cons_of_sep hc).symm, fun w => ?_⟩
      · rw [partsBy, if_pos hc, hparts]
      · rw [List.mem_cons, hp, hps]
        constructor
        · rintro (h | ⟨a, rest, hs, ha, h⟩)
          · exact ⟨c, cs, List.suffix_rfl, hc, h⟩
          · exact ⟨a, rest, hs.trans (List.suffix_cons c cs), ha, h⟩
        · rintro ⟨a, rest, hs, ha, h⟩
          rcases List.suffix_cons_iff.mp hs with he | hs
          · cases he
            exact .inl h
          · exact .inr ⟨a, rest, hs, ha, h⟩
    · rw [Bool.not_eq_true] at hc
      refine ⟨c :: p, ps, ?_, fun w => ?_, fun w => ?_⟩
      · rw [partsBy, if_neg (Bool.eq_false_iff.mp hc), hparts]
      · rw [beginsWith_cons hc]
        constructor
        · rintro rfl
          exact ⟨p, rfl, (hp p).mp rfl⟩
        · rintro ⟨v, rfl, hv⟩
          rw [(hp v).mpr hv]
      · rw [hps]
        constructor
        · rintro ⟨a, rest, hs, ha, h⟩
          exact ⟨a, rest, hs.trans (List.suffix_cons c cs), ha, h⟩
        · rintro ⟨a, rest, hs, ha, h⟩
          rcases List.suffix_cons_iff.mp hs with he | hs
          · cases he
            rw [hc] at ha
            cases ha
          · exact ⟨a, rest, hs, ha, h⟩

/-- A word stands by itself in a text: there is no letter and no digit beside it. -/
def StandsIn (w s : String) : Prop := ∃ pre post, s.toList = pre ++ w.toList ++ post ∧
  (∀ c, pre.getLast? = some c → isAlphanumeric c = false) ∧
  ∀ c, post.head? = some c → isAlphanumeric c = false

/-- **The words of a text** are the words that stand by themselves in it. -/
theorem mem_words_iff {w s : String} (hw : w ≠ "") (hletters : ∀ c ∈ w.toList, isAlphanumeric c) :
    w ∈ words (!isAlphanumeric ·) s ↔ StandsIn w s := by
  obtain ⟨p, ps, hparts, hp, hps⟩ := partsBy_eq_cons (!isAlphanumeric ·) s.toList
  have hmem : w ∈ words (!isAlphanumeric ·) s ↔ w.toList = p ∨ w.toList ∈ ps := by
    rw [words, List.mem_filter, parts, List.mem_map, hparts, ← List.mem_cons]
    constructor
    · rintro ⟨⟨v, hv, rfl⟩, -⟩
      rw [String.toList_ofList]
      exact hv
    · intro h
      exact ⟨⟨w.toList, h, String.ofList_toList⟩, decide_eq_true hw⟩
  rw [hmem, hp, hps]
  simp only [BeginsWith, Bool.not_eq_eq_eq_not, Bool.not_true, Bool.not_false]
  constructor
  · rintro (⟨post, h, -, hpost⟩ | ⟨a, rest, ⟨pre, hs⟩, ha, post, rfl, -, hpost⟩)
    · exact ⟨[], post, h, nofun, hpost⟩
    · refine ⟨pre ++ [a], post, ?_, fun c hc => ?_, hpost⟩
      · rw [← hs]
        simp only [List.append_assoc, List.cons_append, List.nil_append]
      · rw [List.getLast?_concat] at hc
        cases hc
        exact ha
  · rintro ⟨pre, post, h, hpre, hpost⟩
    rcases List.eq_nil_or_concat' pre with rfl | ⟨front, a, rfl⟩
    · exact .inl ⟨post, h, hletters, hpost⟩
    · refine .inr ⟨a, w.toList ++ post, ⟨front, ?_⟩, hpre a List.getLast?_concat, post, rfl, hletters, hpost⟩
      rw [h]
      simp only [List.append_assoc, List.cons_append, List.nil_append]

end Text

/-! ## texts that name a branch -/

/-- one of some words stands by itself in a text, which may be written in capitals -/
def Names (ws : List String) (text : String) : Prop := ∃ w ∈ ws, Text.StandsIn w (Text.lowercase (Text.trim text))

/-- A text speaks for a branch with a word for it; a word for the negative branch wins. -/
def Speaks : Bool → String → Prop
  | true, text => Names positiveWords text ∧ ¬ Names negativeWords text
  | false, text => Names negativeWords text

theorem any_words_iff {ws : List String} (hws : ∀ w ∈ ws, w ≠ "" ∧ ∀ c ∈ w.toList, Text.isAlphanumeric c)
    (text : String) : (Text.words (!Text.isAlphanumeric ·) (Text.lowercase (Text.trim text))).any ws.contains ↔
      Names ws text := by
  rw [List.any_eq_true]
  constructor
  · rintro ⟨w, hmem, hw⟩
    have hin : w ∈ ws := List.contains_iff_mem.mp hw
    exact ⟨w, hin, (Text.mem_words_iff (hws w hin).1 (hws w hin).2).mp hmem⟩
  · rintro ⟨w, hin, h⟩
    exact ⟨w, (Text.mem_words_iff (hws w hin).1 (hws w hin).2).mpr h, List.contains_iff_mem.mpr hin⟩

theorem branchWords_alphanumeric :
    ∀ w ∈ positiveWords ++ negativeWords, w ≠ "" ∧ ∀ c ∈ w.toList, Text.isAlphanumeric c := by
  have hall : (positiveWords ++ negativeWords).all
      (fun w => decide (w ≠ "") && w.toList.all Text.isAlphanumeric) = true := by
    decide +kernel
  intro w hw
  have hword := List.all_eq_true.mp hall w hw
  rw [Bool.and_eq_true, decide_eq_true_eq, List.all_eq_true] at hword
  exact hword

/-- the branch of a text is the one that it speaks for -/
theorem branchOf?_eq_some_iff {text : String} {branch : Bool} : branchOf? text = some branch ↔ Speaks branch text := by
  have hnegative := any_words_iff
    (fun w (hw : w ∈ negativeWords) => branchWords_alphanumeric w (List.mem_append_right _ hw)) text
  have hpositive := any_words_iff
    (fun w (hw : w ∈ positiveWords) => branchWords_alphanumeric w (List.mem_append_left _ hw)) text
  rw [branchOf?]
  cases branch with
  | false =>
    rw [Speaks, ← hnegative]
    split
    · next h => exact iff_of_true rfl h
    · next h =>
      refine iff_of_false (fun he => ?_) h
      split at he
      · cases he
      · cases he
  | true =>
    rw [Speaks, ← hnegative, ← hpositive]
    split
    · next h => exact iff_of_false nofun fun hs => hs.2 h
    · next h =>
      split
      · next h' => exact iff_of_true rfl ⟨h', h⟩
      · next h' => exact iff_of_false nofun fun hs => h' hs.1

theorem chosenBranch_of_speaks {r : String} (h : Speaks true r) : chosenBranch (some r) = true := by
  rw [chosenBranch, Option.bind_some, branchOf?_eq_some_iff.mpr h]
  rfl

theorem chosenBranch_of_not_speaks {route : Option String} (h : ∀ r, route = some r → ¬ Speaks true r) :
    chosenBranch route = false := by
  unfold chosenBranch
  cases hb : route.bind branchOf? with
  | none => rfl
  | some branch =>
    cases branch with
    | false => rfl
    | true =>
      obtain ⟨r, hr, hr'⟩ := Option.bind_eq_some_iff.mp hb
      exact absurd (branchOf?_eq_some_iff.mp hr') (h r hr)

/-! ## edges -/

/-- the text that decides about an edge: its handle, or its label where the handle is absent or empty -/
def Edge.branchText? (e : Edge) : Option String := (e.handle.filter (· ≠ "")).or e.label

/-- an edge with a text for a branch -/
def Edge.Takes (branch : Bool) (e : Edge) : Prop := ∃ text, e.branchText? = some text ∧ Speaks branch text

/-- an edge whose text has no branch word -/
def Edge.Mute (e : Edge) : Prop :=
  ∀ text, e.branchText? = some text → ¬ Names positiveWords text ∧ ¬ Names negativeWords text

theorem Edge.branch?_eq_bind (e : Edge) : e.branch? = e.branchText?.bind branchOf? := by
  rw [branch?, branchText?]
  cases e.handle with
  | none => rfl
  | some h =>
    rw [Option.filter_some]
    dsimp only
    by_cases hh : h = ""
    · rw [if_pos hh, if_neg (by simp [hh]), Option.none_or]
    · rw [if_neg hh, if_pos (by simp [hh]), Option.some_or, Option.bind_some]

theorem Edge.branch?_eq_some_iff {e : Edge} {branch : Bool} : e.branch? = some branch ↔ e.Takes branch := by
  rw [branch?_eq_bind, Option.bind_eq_some_iff]
  simp only [branchOf?_eq_some_iff, Takes]

theorem Edge.mute_iff {e : Edge} : e.Mute ↔ ¬ e.Takes true ∧ ¬ e.Takes false := by
  constructor
  · intro h
    refine ⟨?_, ?_⟩
    · rintro ⟨text, ht, hs⟩
      exact (h text ht).1 hs.1
    · rintro ⟨text, ht, hs⟩
      exact (h text ht).2 hs
  · rintro ⟨htrue, hfalse⟩ text ht
    have hnegative : ¬ Names negativeWords text := fun hs => hfalse ⟨text, ht, hs⟩
    exact ⟨fun hs => htrue ⟨text, ht, hs, hnegative⟩, hnegative⟩

namespace Definition

/-- the edges from a node that take a branch, in their order -/
def branchEdges (d : Definition) (id : String) (branch : Bool) : List Edge :=
  (d.outgoing id).filter fun e => e.branch? = some branch

/-- the edges from a node that take no branch, in their order -/
def muteEdges (d : Definition) (id : String) : List Edge := (d.outgoing id).filter fun e => e.branch? = none

theorem mem_branchEdges {d : Definition} {id : String} {branch : Bool} {e : Edge} :
    e ∈ d.branchEdges id branch ↔ e ∈ d.outgoing id ∧ e.Takes branch := by
  rw [branchEdges, List.mem_filter, decide_eq_true_iff, Edge.branch?_eq_some_iff]

theorem count_filter_branch (es : List Edge) (e : Edge) (branch : Option Bool) :
    (es.filter fun e => e.branch? = branch).count e = if e.branch? = branch then es.count e else 0 := by
  split
  · next h => exact List.count_filter (decide_eq_true h)
  · next h => exact List.count_eq_zero.mpr fun hmem => h (of_decide_eq_true (List.mem_filter.mp hmem).2)

/-- every edge from a node stands in one of the three lists, as often as it leaves the node -/
theorem branchEdges_perm (d : Definition) (id : String) :
    (d.branchEdges id true ++ d.branchEdges id false ++ d.muteEdges id).Perm (d.outgoing id) := by
  rw [List.perm_iff_count]
  intro e
  rw [List.count_append, List.count_append, branchEdges, branchEdges, muteEdges, count_filter_branch,
    count_filter_branch, count_filter_branch]
  cases e.branch? with
  | none => simp
  | some branch => cases branch <;> simp

/-- The edges that leave a node fall into those of its two branches and those that are never followed. -/
structure Branches (d : Definition) (id : String) (yes no mute : List Edge) : Prop where
  /-- each edge stands in one of the lists, as often as it leaves the node -/
  parts : (yes ++ no ++ mute).Perm (d.outgoing id)
  yesInOrder : yes.Sublist (d.outgoing id)
  noInOrder : no.Sublist (d.outgoing id)
  apart : ∀ e ∈ yes, e ∉ no
  taken : ∀ e ∈ d.outgoing id, (e ∈ yes ↔ e.Takes true) ∧ (e ∈ no ↔ e.Takes false)
  neither : ∀ e ∈ d.outgoing id, (e ∉ yes ∧ e ∉ no) ↔ e.Mute

theorem branchEdges_branches (d : Definition) (id : String) :
    d.Branches id (d.branchEdges id true) (d.branchEdges id false) (d.muteEdges id) where
  parts := d.branchEdges_perm id
  yesInOrder := List.filter_sublist
  noInOrder := List.filter_sublist
  apart := by
    intro e hyes hno
    have htrue := Edge.branch?_eq_some_iff.mpr (mem_branchEdges.mp hyes).2
    have hfalse := Edge.branch?_eq_some_iff.mpr (mem_branchEdges.mp hno).2
    rw [htrue] at hfalse
    cases hfalse
  taken := by
    intro e he
    rw [mem_branchEdges, mem_branchEdges, and_iff_right he, and_iff_right he]
    exact ⟨Iff.rfl, Iff.rfl⟩
  neither := by
    intro e he
    rw [mem_branchEdges, mem_branchEdges, and_iff_right he, and_iff_right he, Edge.mute_iff]

theorem nextNodes_of_decision {n : Node} (hn : n.kind = .decision) (d : Definition) (route : Option String) :
    d.nextNodes n route = (d.branchEdges n.id (chosenBranch route)).map (·.target) := by
  simp only [nextNodes, hn, if_pos, branchEdges]

/-- **A decision follows all edges of one branch.**  Every other node follows all its edges. -/
theorem nextNodes_partition (d : Definition) (n : Node) :
    (n.kind = .decision → ∃ yes no mute, d.Branches n.id yes no mute ∧
      (∀ r, Speaks true r → d.nextNodes n (some r) = yes.map (·.target)) ∧
      ∀ route, (∀ r, route = some r → ¬ Speaks true r) → d.nextNodes n route = no.map (·.target)) ∧
    (n.kind ≠ .decision → ∀ route, d.nextNodes n route = (d.outgoing n.id).map (·.target)) := by
  constructor
  · intro hn
    refine ⟨_, _, _, d.branchEdges_branches n.id, fun r hr => ?_, fun route hroute => ?_⟩
    · rw [nextNodes_of_decision hn, chosenBranch_of_speaks hr]
    · rw [nextNodes_of_decision hn, chosenBranch_of_not_speaks hroute]
  · intro hn route
    simp only [nextNodes, hn, if_false]

namespace Sample

/-- a decision whose edges name a branch by a handle against a label, by a label, in both ways at once, and not -/
def crossroads : Definition where
  id := "crossroads"
  name := "crossroads"
  description := none
  status := .published
  version := 1
  subprocessCompatible := false
  nodes := [⟨"choice", .decision, none, .null⟩]
  edges := [⟨"1", "choice", "a", some "no", some "Yes"⟩, ⟨"2", "choice", "b", some "", some "Approve!"⟩,
    ⟨"3", "choice", "c", none, some "accept or reject"⟩, ⟨"4", "choice", "d", some "Unknown", some "yes"⟩]

def choice : Node := ⟨"choice", .decision, none, .null⟩

end Sample

theorem nextNodes_partition_crossroads : Sample.choice.kind = .decision ∧ Speaks true "true" ∧
    ∃ yes no mute, Sample.crossroads.Branches "choice" yes no mute ∧
      Sample.crossroads.nextNodes Sample.choice (some "true") = yes.map (·.target) ∧
      yes.map (·.target) = ["b"] ∧ no.map (·.target) = ["a", "c"] := by
  have hspeaks : Speaks true "true" := branchOf?_eq_some_iff.mp (by decide +kernel)
  have hsilent : ∀ r, none = some r → ¬ Speaks true r := nofun
  obtain ⟨yes, no, mute, hbranches, hyes, hno⟩ := (nextNodes_partition Sample.crossroads Sample.choice).1 rfl
  refine ⟨rfl, hspeaks, yes, no, mute, hbranches, hyes "true" hspeaks, ?_, ?_⟩
  · rw [← hyes "true" hspeaks]
    decide +kernel
  · rw [← hno none hsilent]
    decide +kernel

end Definition
end Workflows
