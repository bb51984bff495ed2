import Workflows.Proofs.Expr.Observed

/-!
# Templates, piece by piece

Placeholders are filled in from left to right, in one pass.  What is inserted is not looked at again: it opens no
placeholder with the text behind it, and a placeholder in it stays as it is.

* `closed`             every placeholder that a text opens is closed in it;
* `fillChars_append`   such a text is filled in alone, unless its last character opens a placeholder with what follows;
* `placeholder`        the characters of a placeholder.

Main statement: `fill_one_pass`.
-/

namespace Workflows

/-- the characters of a placeholder -/
def placeholder (x : String) : List Char := '$' :: '\x7b' :: (x.toList ++ ['\x7d'])

namespace Template
variable {vars : Vars} {w s r r' name : List Char}

/-- every placeholder that is opened is closed -/
def closed (cs : List Char) : Bool :=
  match cs with
  | [] => true
  | '$' :: '\x7b' :: r =>
    match h : splitClose r with
    | some (_, r') =>
      have : r'.length < r.length + 1 + 1 := by have := length_splitClose h; omega
      closed r'
    | none => false
  | _ :: r => closed r
termination_by cs.length

theorem splitClose_append (s : List Char) (h : splitClose r = some (name, r')) :
    splitClose (r ++ s) = some (name, r' ++ s) := by
  fun_induction splitClose r generalizing name with
  | case1 => cases h
  | case2 => cases h; rfl
  | case3 c cs hne ih =>
    obtain ⟨⟨u, v⟩, hp, he⟩ := Option.map_eq_some_iff.mp h
    cases he
    rw [List.cons_append, splitClose, ih hp, Option.map_some]
    exact fun heq => hne heq

theorem splitClose_name (h : '\x7d' ∉ w) : splitClose (w ++ ['\x7d']) = some (w, []) := by
  induction w with
  | nil => rfl
  | cons c w ih =>
    rw [List.mem_cons, not_or] at h
    rw [List.cons_append, splitClose, ih h.2, Option.map_some]
    exact fun heq => h.1 heq.symm

theorem closed_of_splitClose (h : splitClose r = some (name, r')) : closed ('$' :: '\x7b' :: r) = closed r' := by
  rw [closed]
  split
  · next heq => cases h.symm.trans heq; rfl
  · next heq => cases h.symm.trans heq

theorem closed_of_notMem (h : '$' ∉ w) : closed w = true := by
  induction w with
  | nil => rw [closed]
  | cons c w ih =>
    rw [List.mem_cons, not_or] at h
    rw [closed, ih h.2]
    exact fun _ hc => absurd hc.symm h.1

/-- where no placeholder can begin, nothing is filled in -/
theorem fillChars_of_notMem (h : '$' ∉ w) : fillChars vars w = w := by
  induction w with
  | nil => rw [fillChars]
  | cons c w ih =>
    rw [List.mem_cons, not_or] at h
    rw [fillChars_cons (fun _ hc => absurd hc.symm h.1), ih h.2]

/-! ## Two pieces -/

/-- the end of one piece opens a placeholder with the start of the next one -/
def Straddled (w s : List Char) : Prop := w.getLast? = some '$' ∧ s.head? = some '\x7b'

/-- an end of the first piece has the same last character -/
theorem Straddled.of_end {v : List Char} (h : Straddled w s) : Straddled (v ++ w) s :=
  ⟨by rw [List.getLast?_append, h.1]; rfl, h.2⟩

/-- A closed piece is filled in alone. -/
theorem fillChars_append (hw : closed w = true) (hs : ¬Straddled w s) :
    fillChars vars (w ++ s) = fillChars vars w ++ fillChars vars s := by
  fun_induction closed w with
  | case1 => rw [List.nil_append, fillChars, List.nil_append]
  | case2 r name r' hsplit _ ih =>
    have hend : '$' :: '\x7b' :: r = ('$' :: '\x7b' :: name ++ ['\x7d']) ++ r' := by rw [splitClose_eq hsplit]; simp
    rw [List.cons_append, List.cons_append, fillChars_closed hsplit, fillChars_closed (splitClose_append s hsplit),
      ih hw fun h => hs (hend ▸ h.of_end), List.append_assoc]
  | case3 => cases hw
  | case4 c r hne ih =>
    rw [List.cons_append, fillChars_cons hne, fillChars_cons, ih hw fun h => hs (h.of_end (v := [c])), List.cons_append]
    -- a placeholder that begins with `c` begins inside the piece, or straddles its end
    intro t hc ht
    cases r with
    | nil => exact hs ⟨by rw [hc]; rfl, by rw [List.nil_append] at ht; rw [ht]; rfl⟩
    | cons d r => exact hne r hc (by rw [List.cons_append] at ht; rw [(List.cons.inj ht).1])

theorem fillChars_placeholder {x : String} (hx : '\x7d' ∉ x.toList) (s : List Char) :
    fillChars vars (placeholder x ++ s) = filling vars x.toList ++ fillChars vars s := by
  have hsplit := splitClose_append s (splitClose_name hx)
  rw [List.append_assoc] at hsplit
  rw [placeholder, List.cons_append, List.cons_append, List.append_assoc, fillChars_closed hsplit, List.nil_append]

theorem filling_toList (x : String) : filling vars x.toList =
    (match vars.lookup? (Text.trim x) with
      | some v => v.text
      | none => String.ofList (placeholder x)).toList := by
  rw [filling, String.ofList_toList]
  cases vars.lookup? (Text.trim x) with
  | some v => rfl
  | none => simp [placeholder]

/-- **Placeholders are filled in in one pass.**  A text whose placeholders are closed is filled in by itself, whatever
follows, unless the end of the one opens a placeholder with the start of the other; the value of a variable stands in the
place of its placeholder as it is, whatever is in it; and a text none of whose variables is found stays as it is. -/
theorem fill_one_pass (vars : Vars) :
    (∀ a b : String, closed a.toList = true → ¬(a.toList.getLast? = some '$' ∧ b.toList.head? = some '\x7b') →
      fill vars (a ++ b) = fill vars a ++ fill vars b) ∧
    (∀ a x b : String, closed a.toList = true → '\x7d' ∉ x.toList →
      fill vars (a ++ String.ofList (placeholder x) ++ b) =
        fill vars a ++ (match vars.lookup? (Text.trim x) with
          | some v => v.text
          | none => String.ofList (placeholder x)) ++ fill vars b) ∧
    ∀ a : String, (∀ name ∈ placeholders a.toList, vars.lookup? name = none) → fill vars a = a := by
  refine ⟨?_, ?_, fun a => fill_unresolved⟩
  · intro a b ha hab
    rw [fill, String.toList_append, fillChars_append ha hab, String.ofList_append]
    rfl
  · intro a x b ha hx
    have hopen : ¬Straddled a.toList (placeholder x ++ b.toList) := fun h => by simp [Straddled, placeholder] at h
    rw [fill, String.toList_append, String.toList_append, String.toList_ofList, List.append_assoc,
      fillChars_append ha hopen, fillChars_placeholder hx, filling_toList, String.ofList_append, String.ofList_append,
      String.ofList_toList, String.append_assoc]
    rfl

end Template

namespace Sample

/-- values that are parts of placeholders, and a whole one -/
def dollars : Vars := [("next", .str "$\x7bprice\x7d"), ("price", .str "$")]

end Sample

open Template in
/-- What is inserted opens no placeholder with the text behind it, and is none; a name may hold what opens another. -/
theorem fill_one_pass_inserted :
    (closed "$\x7bprice\x7d".toList = true ∧
      fill Sample.dollars ("$\x7bprice\x7d" ++ "\x7bnext\x7d") =
        fill Sample.dollars "$\x7bprice\x7d" ++ fill Sample.dollars "\x7bnext\x7d" ∧
      fill Sample.dollars ("$\x7bprice\x7d" ++ "\x7bnext\x7d") = "$\x7bnext\x7d") ∧
    (closed "10$".toList = true ∧
      fill Sample.dollars ("10$" ++ String.ofList (placeholder "next") ++ "!") =
        fill Sample.dollars "10$" ++ "$\x7bprice\x7d" ++ fill Sample.dollars "!") ∧
    fill Sample.dollars "$\x7ba $\x7bprice\x7d $\x7bnext" = "$\x7ba $\x7bprice\x7d $\x7bnext" := by
  have hprice : closed "$\x7bprice\x7d".toList = true := by decide +kernel
  have hten : closed "10$".toList = true := by decide +kernel
  have hmissing : ∀ name ∈ placeholders "$\x7ba $\x7bprice\x7d $\x7bnext".toList,
      Vars.lookup? Sample.dollars name = none := by decide +kernel
  obtain ⟨happend, hinserted, hkept⟩ := fill_one_pass Sample.dollars
  exact ⟨⟨hprice, happend _ _ hprice (by decide), by decide +kernel⟩, ⟨hten, hinserted _ _ _ hten (by decide)⟩,
    hkept _ hmissing⟩

end Workflows
