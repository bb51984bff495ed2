import Workflows.Proofs.Node.Lists
import Workflows.Proofs.Number.Numerals
import Workflows.Proofs.Renaming.Nodes

/-!
# Texts made numbers

The function `to_number` makes a number of a numeral.  The doubles have infinite members, which are no numbers as a
value: a text that reads as one of these becomes null, and no failure.

* `Json.MakesNumber`   the values that become numbers
* `Json.MakesNull`     the texts that become null
* `pipeline`           what functions in turn make of a value

Main statement: a transformation that ends with `to_number` gives a number for the former, null for the latter, and
fails for all other values (`transform_toNumber`).
-/

namespace Workflows

/-! ## One value -/

namespace Json

def isNumber : Json → Bool
  | .int _ | .double _ => true
  | _ => false

/-- A number, a truth value, or a numeral for a number that is near a double. -/
def MakesNumber : Json → Prop
  | .int _ | .double _ | .bool _ => True
  | .str s => ∃ q, Number.IsNumeral (Text.trim s) q ∧ |q| < Number.leastInfinite
  | _ => False

/-- A word for an infinite number or for none, or a numeral for a number that is near no double. -/
def MakesNull : Json → Prop
  | .str s => Number.IsWord (Text.trim s) ∨ ∃ q, Number.IsNumeral (Text.trim s) q ∧ Number.leastInfinite ≤ |q|
  | _ => False

/-- the number that a value becomes -/
def toNumber? : Json → Option Json
  | .str s => numberOfText? s
  | .bool b => some (.int (if b then 1 else 0))
  | .int n => some (.int n)
  | .double x => some (.double x)
  | _ => none

theorem apply_toNumber (w : Json) : (Json.apply "to_number" w).toOption = toNumber? w := by
  cases w with
  | str s =>
    unfold apply applyTyped? applyToText? toNumber?
    simp only
    generalize numberOfText? s = number
    cases number with
    | some v => rfl
    | none => rfl
  | _ => rfl

/-! ### texts -/

variable {s : String}

theorem isFinite_of_readInt64? {n : Int} (h : Number.readInt64? s = some n) :
    ∃ x, Number.readDouble? s = some x ∧ x.isFinite = true :=
  have ⟨hnumeral, hlt⟩ := Number.numeral_of_readInt64? h
  Number.readDouble?_finite_iff.mpr ⟨n, hnumeral, hlt⟩

/-- A text becomes a number just if it reads as a finite double. -/
theorem numberOfText?_number : (∃ v, v.isNumber ∧ numberOfText? s = some v) ↔
    ∃ x, Number.readDouble? (Text.trim s) = some x ∧ x.isFinite = true := by
  rw [numberOfText?]
  cases hint : Number.readInt64? (Text.trim s) with
  | some n => exact iff_of_true ⟨_, rfl, rfl⟩ (isFinite_of_readInt64? hint)
  | none =>
    cases Number.readDouble? (Text.trim s) with
    | none => simp
    | some x =>
      simp only [Option.map_some, Option.some_inj, exists_eq_right', exists_eq_left', ofDouble]
      cases x.isFinite with
      | true => exact iff_of_true rfl rfl
      | false => exact iff_of_false Bool.false_ne_true Bool.false_ne_true

theorem numberOfText?_null : numberOfText? s = some .null ↔
    ∃ x, Number.readDouble? (Text.trim s) = some x ∧ x.isFinite = false := by
  rw [numberOfText?]
  cases hint : Number.readInt64? (Text.trim s) with
  | some n =>
    obtain ⟨x, hx, hfinite⟩ := isFinite_of_readInt64? hint
    rw [hx]
    simp [hfinite]
  | none =>
    cases Number.readDouble? (Text.trim s) with
    | none => simp
    | some x =>
      simp only [Option.map_some, Option.some_inj, exists_eq_left', ofDouble]
      cases x.isFinite with
      | true => simp
      | false => exact iff_of_true rfl rfl

theorem isNumber_or_null_of_text {v : Json} (h : numberOfText? s = some v) : v.isNumber ∨ v = .null := by
  rw [numberOfText?] at h
  split at h
  · obtain rfl := Option.some.inj h
    exact .inl rfl
  · obtain ⟨x, -, rfl⟩ := Option.map_eq_some_iff.mp h
    rw [ofDouble]
    split
    · exact .inl rfl
    · exact .inr rfl

/-! ### all values -/

theorem toNumber?_number (w : Json) : (∃ v, v.isNumber ∧ toNumber? w = some v) ↔ w.MakesNumber := by
  cases w with
  | str s =>
    rw [toNumber?, numberOfText?_number, MakesNumber]
    exact Number.readDouble?_finite_iff
  | int n => exact iff_of_true ⟨_, rfl, rfl⟩ trivial
  | double x => exact iff_of_true ⟨_, rfl, rfl⟩ trivial
  | bool b => exact iff_of_true ⟨_, rfl, rfl⟩ trivial
  | null | arr _ | obj _ => exact iff_of_false (fun ⟨_, _, h⟩ => nomatch h) id

theorem toNumber?_null (w : Json) : toNumber? w = some .null ↔ w.MakesNull := by
  cases w with
  | str s =>
    rw [toNumber?, numberOfText?_null, MakesNull]
    exact Number.readDouble?_infinite_iff
  | _ => exact iff_of_false nofun id

theorem isNumber_or_null {w v : Json} (h : toNumber? w = some v) : v.isNumber ∨ v = .null := by
  cases w with
  | str s =>
    rw [toNumber?] at h
    exact isNumber_or_null_of_text h
  | int n => cases h; exact .inl rfl
  | double x => cases h; exact .inl rfl
  | bool b => cases h; exact .inl rfl
  | null | arr _ | obj _ => cases h

end Json

/-! ## The node -/

namespace Node
open NodeRun

/-- what functions in turn make of a value; nothing where one of them fails -/
def pipeline (fs : List String) (v : Json) : Option Json := fs.foldlM (fun v f => (Json.apply f v).toOption) v

theorem pipeline_toNumber (fs : List String) (v : Json) :
    pipeline (fs ++ ["to_number"]) v = (pipeline fs v).bind Json.toNumber? := by
  rw [pipeline, List.foldlM_append]
  refine congrArg (Option.bind _) (funext fun w => ?_)
  rw [List.foldlM_cons, Json.apply_toNumber]
  cases Json.toNumber? w with
  | some v => rfl
  | none => rfl

/-- the outcome of a node with a result -/
def reported (v : Json) : Outcome := .done (.ofMembers [("result", v)])

theorem reported_inj {v w : Json} : reported v = reported w ↔ v = w := by
  refine ⟨fun h => ?_, congrArg reported⟩
  have houtput : Json.obj [("result", v)] = .obj [("result", w)] :=
    Option.some.inj (congrArg Outcome.output h)
  cases houtput
  rfl

variable {n : Node} {t : TransformSettings} {s : Session}

theorem execute_transform (c : NodeContext) (hk : n.kind = .transform) (ht : n.read? TransformSettings.decode = some t)
    (hmapping : t.mapping = []) (s : Session) :
    match pipeline t.functions (resolve s.vars t.input) with
    | some v => ((n.execute c).run s).1 = reported v
    | none => ∃ reason, (n.execute c).run s = (.failed reason, s) := by
  have hh : n.handle c = n.transform := by rw [handle, hk]
  rcases Renaming.applyAll_cases n t.functions (resolve s.vars t.input) with ⟨v, hv, hrun⟩ | ⟨hnone, e, hrun⟩
  · obtain ⟨vs, hset⟩ := runFrom_setVar? t.outputVariable v s
    have hmapped : mapped s.vars t.mapping v = v := by rw [hmapping]; rfl
    rw [pipeline, hv]
    refine execute_of_ok ?_
    rw [hh]
    unfold transform
    rw [runFrom_bind_ok (runFrom_settings ht s), runFrom_bind_ok (runFrom_vars s), runFrom_bind_ok (hrun s)]
    simp only [hmapped]
    rw [runFrom_bind_ok hset]
    rfl
  · rw [pipeline, hnone]
    refine ⟨e.message, ?_⟩
    rw [execute_run, hh]
    unfold transform
    rw [runFrom_bind_ok (runFrom_settings ht s), runFrom_bind_ok (runFrom_vars s), runFrom_bind_error (hrun s)]
    rfl

/-- **A transformation that ends with `to_number` fails or gives a number, but for texts that become null.** -/
theorem transform_toNumber (c : NodeContext) {fs : List String} (hk : n.kind = .transform)
    (ht : n.read? TransformSettings.decode = some t) (hmapping : t.mapping = [])
    (hfunctions : t.functions = fs ++ ["to_number"]) :
    ((∃ reason, (n.execute c).run s = (.failed reason, s)) ∨
      ∃ v, (v.isNumber ∨ v = .null) ∧ ((n.execute c).run s).1 = reported v) ∧
    ((∃ v, v.isNumber ∧ ((n.execute c).run s).1 = reported v) ↔
      ∃ w, pipeline fs (resolve s.vars t.input) = some w ∧ w.MakesNumber) ∧
    (((n.execute c).run s).1 = reported .null ↔
      ∃ w, pipeline fs (resolve s.vars t.input) = some w ∧ w.MakesNull) := by
  have hrun := execute_transform c hk ht hmapping s
  rw [hfunctions, pipeline_toNumber] at hrun
  have hnumber : (∃ w, pipeline fs (resolve s.vars t.input) = some w ∧ w.MakesNumber) ↔
      ∃ v, v.isNumber ∧ (pipeline fs (resolve s.vars t.input)).bind Json.toNumber? = some v := by
    simp only [← Json.toNumber?_number, Option.bind_eq_some_iff]
    exact ⟨fun ⟨w, hw, v, hv, h⟩ => ⟨v, hv, w, hw, h⟩, fun ⟨v, hv, w, hw, h⟩ => ⟨w, hw, v, hv, h⟩⟩
  have hnull : (∃ w, pipeline fs (resolve s.vars t.input) = some w ∧ w.MakesNull) ↔
      (pipeline fs (resolve s.vars t.input)).bind Json.toNumber? = some .null := by
    simp only [← Json.toNumber?_null, Option.bind_eq_some_iff]
  have hkind : ∀ v, (pipeline fs (resolve s.vars t.input)).bind Json.toNumber? = some v → v.isNumber ∨ v = .null := by
    intro v hv
    obtain ⟨w, -, hw⟩ := Option.bind_eq_some_iff.mp hv
    exact Json.isNumber_or_null hw
  rw [hnumber, hnull]
  generalize (pipeline fs (resolve s.vars t.input)).bind Json.toNumber? = result at hrun hkind ⊢
  cases result with
  | none =>
    obtain ⟨reason, hrun⟩ := hrun
    have hnever : ∀ v, Outcome.failed reason ≠ reported v := nofun
    rw [hrun]
    exact ⟨.inl ⟨reason, rfl⟩, iff_of_false (fun ⟨v, _, h⟩ => hnever v h) nofun, iff_of_false (hnever _) nofun⟩
  | some v =>
    simp only at hrun
    simp only [hrun, reported_inj, Option.some_inj, exists_eq_right', and_true]
    exact .inr (hkind v rfl)

namespace Sample

/-- a transformation of a text -/
def converting (text : String) (functions : List String) : Node :=
  ⟨"amount", .transform, none, .obj [("functions", .ofStrings functions), ("input", .str text)]⟩

end Sample

theorem transform_toNumber_word :
    (((Sample.converting "inf" ["to_number"]).execute Sample.recovering).run Sample.session).1 = reported .null ∧
      Json.null.isNumber = false := by
  decide +kernel

/-- the greatest double is about `1.797e308` -/
theorem transform_toNumber_great :
    (Sample.converting " 18e307" ["trim", "to_number"]).kind = .transform ∧
    (((Sample.converting " 18e307" ["trim", "to_number"]).execute Sample.recovering).run Sample.session).1 =
      reported .null := by
  have ht : (Sample.converting " 18e307" ["trim", "to_number"]).read? TransformSettings.decode =
      some ⟨.str " 18e307", ["trim", "to_number"], [], none⟩ := rfl
  have hinput : resolve Sample.session.vars (.str " 18e307") = .str "18e307" := by decide +kernel
  have htrimmed : pipeline ["trim"] (.str "18e307") = some (.str "18e307") := by decide +kernel
  have htext : Text.trim "18e307" = "18e307" := by decide +kernel
  have hexponent : Number.IsExponent ['e', '3', '0', '7'] 307 :=
    Number.readExponent?_iff.mp (by decide +kernel)
  have hdigits : Number.IsDigits ['1', '8'] := (Number.readDigits?_iff.mp rfl).1
  have hdecimal : Number.IsDecimal ['1', '8', 'e', '3', '0', '7'] 18 307 :=
    @Number.IsDecimal.whole ['1', '8'] _ _ hdigits hexponent
  have hnumeral : Number.IsNumeral "18e307" (18 * 10 ^ (307 : Int)) :=
    ⟨false, _, 18, 307, .unsigned _, hdecimal, rfl⟩
  have hgreat : (Number.leastInfinite : ℚ) ≤ |18 * 10 ^ (307 : Int)| := by
    have hnat : Number.leastInfinite ≤ 18 * 10 ^ 307 := by decide +kernel
    rw [abs_of_nonneg (by positivity), zpow_ofNat]
    exact_mod_cast hnat
  refine ⟨rfl, (@transform_toNumber _ _ _ Sample.recovering ["trim"] rfl ht rfl rfl).2.2.mpr ⟨.str "18e307", ?_, ?_⟩⟩
  · rw [hinput]
    exact htrimmed
  · rw [Json.MakesNull, htext]
    exact .inr ⟨_, hnumeral, hgreat⟩

end Node
end Workflows
