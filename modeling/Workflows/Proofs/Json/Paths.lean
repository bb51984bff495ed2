import Workflows.Node.Lists

/-!
# Paths into variables and into values

A path leads into a variable in two ways: behind the name of the variable, where templates and conditions look it up,
and from its value, where the keys of a list are read.

* `walk?_eq_foldlM`   one walk ends where its steps lead one after the other
* `pathSteps_dotted`  the steps behind a name without dots

Main statement: both ways end at the same value or at none, unless a variable is called like the whole path
(`lookup?_dotted`).
-/

namespace Workflows

/-! ## Steps -/

theorem Text.partsBy_append {sep : Char → Bool} {p : List Char} {c : Char} (hp : ∀ d ∈ p, sep d = false)
    (hc : sep c = true) (cs : List Char) : partsBy sep (p ++ c :: cs) = p :: partsBy sep cs := by
  induction p with
  | nil => rw [List.nil_append, partsBy, if_pos hc]
  | cons d p ih =>
    obtain ⟨hd, hrest⟩ := List.forall_mem_cons.mp hp
    rw [List.cons_append, partsBy, if_neg (Bool.eq_false_iff.mp hd), ih hrest]

namespace Json

theorem pathSteps_dotted {name : String} (h : '.' ∉ name.toList) (path : String) :
    pathSteps (name ++ "." ++ path) = name :: pathSteps path := by
  have hname : ∀ d ∈ name.toList, decide (d = '.') = false := fun d hd => decide_eq_false fun heq => h (heq ▸ hd)
  have hchars : (name ++ "." ++ path).toList = name.toList ++ '.' :: path.toList := by simp
  rw [pathSteps, Text.parts, hchars, Text.partsBy_append hname rfl, List.map_cons, String.ofList_toList]
  rfl

theorem walk?_cons (v : Json) (k : String) (ks : List String) :
    v.walk? (k :: ks) = (v.step? k).bind (·.walk? ks) := by
  cases v with
  | obj members =>
    rw [walk?, step?]
    cases Dict.get? members k <;> rfl
  | arr items =>
    rw [walk?, step?]
    cases Number.readIndex? k with
    | none => rfl
    | some i =>
      simp only [Option.bind_some]
      cases items[i]? <;> rfl
  | null | bool _ | int _ | double _ | str _ => rfl

/-- The induction is on the steps; each of them starts from the value that the one before it has led to. -/
theorem walk?_eq_foldlM (v : Json) (steps : List String) : v.walk? steps = steps.foldlM step? v := by
  induction steps generalizing v with
  | nil => rfl
  | cons k ks ih =>
    rw [walk?_cons, List.foldlM_cons]
    exact Option.bind_congr fun w _ => ih w

theorem at?_eq_walk? (v : Json) (path : String) : v.at? path = v.walk? (pathSteps path) := (walk?_eq_foldlM v _).symm

end Json

/-! ## Behind a name -/

variable {vars : Vars} {name : String} {v : Json}

theorem Vars.lookup?_of_steps {path : String} {steps : List String} (hfree : Dict.get? vars path = none)
    (hsteps : Json.pathSteps path = name :: steps) (hv : Dict.get? vars name = some v) :
    vars.lookup? path = v.walk? steps := by
  rw [lookup?, hfree, hsteps]
  simp only [hv, Option.bind_some]

/-- **A path behind a name leads where it leads from the value of the name.** -/
theorem lookup?_dotted (hname : '.' ∉ name.toList) (hv : Dict.get? vars name = some v) (path : String)
    (hfree : Dict.get? vars (name ++ "." ++ path) = none) : vars.lookup? (name ++ "." ++ path) = v.at? path := by
  rw [Vars.lookup?_of_steps hfree (Json.pathSteps_dotted hname path) hv, Json.at?_eq_walk?]

namespace Sample

/-- an order with two items, and a member whose name is empty -/
def order : Json :=
  .obj [("", .obj [("id", .int 7)]), ("items", .arr [.obj [("price", .int 30)], .obj [("price", .null)]])]

/-- paths to members and positions, through an empty step, and to where nothing is -/
def orderPaths : List String := ["items.0.price", "items.+1.price", ".id", "", "items.2.price", "items..price", "id.x"]

def orderVars : Vars := [("order", order), ("order.items", .str "no list")]

end Sample

theorem lookup?_dotted_order :
    '.' ∉ "order".toList ∧ Dict.get? Sample.orderVars "order" = some Sample.order ∧
    (∀ path ∈ Sample.orderPaths, Sample.orderVars.lookup? ("order" ++ "." ++ path) = Sample.order.at? path) ∧
    Sample.orderPaths.map Sample.order.at? =
      [some (.int 30), some .null, some (.int 7), some (.obj [("id", .int 7)]), none, none, none] := by
  have hdots : '.' ∉ "order".toList := by decide
  have hfree : ∀ path ∈ Sample.orderPaths, Dict.get? Sample.orderVars ("order" ++ "." ++ path) = none := by
    decide +kernel
  exact ⟨hdots, rfl, fun path hpath => lookup?_dotted hdots rfl path (hfree path hpath), rfl⟩

/-! ## In a mapping -/

namespace Node

/-- **A source in a mapping is read like a key**, unless a variable is called like its path; only where nothing is there
is it an expression. -/
theorem mappedValue_eq_at? (vs members : Vars) {path : String}
    (hfree : Dict.get? (itemScope vs (.obj members)) ("item." ++ path) = none) :
    mappedValue (itemScope vs (.obj members)) (.obj members) (.str path) =
      ((Json.obj members).at? path).getD (evaluate (itemScope vs (.obj members)) path) := by
  have hitem : Dict.get? (itemScope vs (.obj members)) "item" = some (.obj members) := Dict.get?_insert_self _ _ _
  have hsteps : Json.pathSteps ("item." ++ path) = "item" :: Json.pathSteps path := by
    have hdot : "item." = "item" ++ "." := by decide
    rw [hdot, Json.pathSteps_dotted (by decide)]
  have hlookup := Vars.lookup?_of_steps hfree hsteps hitem
  rw [← Json.at?_eq_walk?] at hlookup
  unfold mappedValue
  simp only [hlookup]
  cases (Json.obj members).at? path with
  | none => simp only [Option.getD_none]
  | some v => simp only [Option.getD_some]

end Node

end Workflows
