import Workflows.Node.Execute
import Workflows.Proofs.Expr.Observed
import Workflows.Proofs.Renaming.Value

/-!
# What a node looks at

A node looks at a value where a decision hangs on it: where the value fills a placeholder, where an expression names
it, where it is compared, used as a key or written into a message.  A value that is only handed on is not looked at:
the variables that a child starts with, or the list that a filter goes through.

* `Template.shown`, `textLooks`    what a template and an expression look at
* `Node.looksAt`                   what a node looks at under some variables
* `Renaming.Unseen`                nothing that is looked at holds a generated id
* `Binds.evaluate`, `Binds.fill`   a text that looks at no generated id means the same in both runs
-/

namespace Workflows

/-! ## Texts -/

/-- the values that stand for the placeholders of a template -/
def Template.shown (vs : Vars) (text : String) : List Json := (placeholders text.toList).filterMap vs.lookup?

/-- the values that a text looks at: those of its placeholders, and those it names once it is filled in -/
def textLooks (vs : Vars) (text : String) : List Json :=
  Template.shown vs text ++ (namesIn (Text.trim (Template.fill vs text))).filterMap (Dict.get? vs)

/-- the values that the texts inside a value look at when they are evaluated -/
def deepLooks (vs : Vars) (v : Json) : List Json := v.texts.flatMap (textLooks vs)

/-- the values that the texts inside a value look at when they are filled in -/
def fillLooks (vs : Vars) (v : Json) : List Json := v.texts.flatMap (Template.shown vs)

/-- the values that a setting looks at: none where it names a variable, which is handed on -/
def resolveLooks (vs : Vars) : Json → List Json
  | .str s =>
    let t := Text.trim s
    match lonePlaceholder? t, vs.lookup? t with
    | none, none => textLooks vs t
    | _, _ => []
  | _ => []

/-- an input that is no list is written into the message that says so -/
def inputLooks (vs : Vars) (v : Json) : List Json :=
  resolveLooks vs v ++ match resolve vs v with
    | .arr _ | .null => []
    | other => [other]

/-- the items of an input that is a list -/
def inputItems (vs : Vars) (v : Json) : List Json :=
  match resolve vs v with
  | .arr items => items
  | _ => []

/-! ## Nodes -/

namespace Node

/-- the settings of a node, if it has any -/
def read? (n : Node) (decode : Decoder α) : Option α := decode (if n.data.isNull then .obj [] else n.data)

def SwitchSettings.looks (s : SwitchSettings) (vs : Vars) : List Json :=
  s.subject.elim [] fun t => resolveLooks vs (.str t) ++ [resolve vs (.str t)]

/-- each assignment under the variables that the ones before it have set -/
def assignLooks : List VariableAssignment → Vars → List Json
  | [], _ => []
  | a :: as, vs => deepLooks vs a.value ++ assignLooks as (Dict.insert vs a.name (evaluateDeep vs a.value))

/-- what a source in a mapping looks at: nothing where it is a path into the item -/
def sourceLooks (scope : Vars) (item source : Json) : List Json :=
  match source, item with
  | .str path, .obj _ => match scope.lookup? ("item." ++ path) with
    | some _ => []
    | none => textLooks scope path
  | .str path, _ => textLooks scope path
  | _, _ => []

/-- functions look at the value that they change -/
def TransformSettings.looks (s : TransformSettings) (vs : Vars) : List Json :=
  let v := resolve vs s.input
  resolveLooks vs s.input ++
    if s.functions.isEmpty then s.mapping.flatMap fun m => sourceLooks (itemScope vs v) v m.2
    else [v] ++ match s.functions.foldlM (fun v f => (Json.apply f v).toOption) v with
      | some w => s.mapping.flatMap fun m => sourceLooks (itemScope vs w) w m.2
      | none => []

def FilterSettings.looks (s : FilterSettings) (vs : Vars) : List Json :=
  inputLooks vs s.input ++
    s.condition.elim [] fun condition =>
      (inputItems vs s.input).flatMap fun item => textLooks (itemScope vs item) condition

def SortSettings.looks (s : SortSettings) (vs : Vars) : List Json :=
  inputLooks vs s.input ++ (inputItems vs s.input).filterMap (keyOf s.key)

/-- criteria look at what they ask for -/
def criteriaLooks (criteria : Vars) (vs : Vars) : List Json :=
  criteria.flatMap (fun c => deepLooks vs c.2) ++ Dict.values (evaluateMembers vs criteria)

def fieldLooks (fields : Vars) (vs : Vars) : List Json := fields.flatMap fun f => deepLooks vs f.2

def authLooks (vs : Vars) : HttpAuth → List Json
  | .bearer token => Template.shown vs token
  | .basic username password => Template.shown vs username ++ Template.shown vs password

/-- a request looks at what fills its parts; one that carries all variables hands them on -/
def ActionSettings.looks (s : ActionSettings) (vs : Vars) : List Json :=
  s.url.elim [] (Template.shown vs) ++ s.headers.flatMap (fun h => Template.shown vs h.2.text) ++
    s.body.elim [] (fillLooks vs) ++ s.payload.elim [] (fillLooks vs) ++ s.auth.elim [] (authLooks vs) ++
    s.script.elim [] (textLooks vs)

/-- an event is awaited under its name -/
def EventSettings.looks (s : EventSettings) (vs : Vars) : List Json :=
  s.name.elim [] fun name => Template.shown vs name ++ [.str (Template.fill vs name)]

/-- a source without a placeholder is handed on -/
def inputMappingLooks (mapping : Dict String) (vs : Vars) : List Json :=
  mapping.flatMap fun m => if Text.occursIn "$\x7b" m.2 then textLooks vs m.2 else []

/-- the values that a node looks at when it is run under some variables -/
def looksAt (n : Node) (vs : Vars) : List Json :=
  match n.kind with
  | .decision => (n.read? DecisionSettings.decode).elim [] fun s => s.condition.elim [] (textLooks vs)
  | .switch => (n.read? SwitchSettings.decode).elim [] (·.looks vs)
  | .assignment => (n.read? assignmentsOf).elim [] (assignLooks · vs)
  | .transform => (n.read? TransformSettings.decode).elim [] (·.looks vs)
  | .filter => (n.read? FilterSettings.decode).elim [] (·.looks vs)
  | .sort => (n.read? SortSettings.decode).elim [] (·.looks vs)
  | .aggregate => (n.read? AggregateSettings.decode).elim [] fun s => inputLooks vs s.input
  | .calculate => (n.read? CalculateSettings.decode).elim [] fun s => s.expression.elim [] (textLooks vs)
  | .loopForEach => (n.read? ForEachSettings.decode).elim [] fun s => inputLooks vs s.collection
  | .loopWhile | .loopDoWhile =>
    (n.read? ConditionSettings.decode).elim [] fun s => s.condition.elim [] (textLooks vs)
  | .loopRepeat => (n.read? repeatCountOf).elim [] fun v => resolveLooks vs v ++ [resolve vs v]
  | .loopBreak | .loopContinue => (n.read? guardOf).elim [] fun guard => guard.elim [] (textLooks vs)
  | .lookupRecord | .deleteRecord => (n.read? RecordSettings.decode).elim [] fun s => criteriaLooks s.criteria vs
  | .createRecord => (n.read? RecordSettings.decode).elim [] fun s => fieldLooks s.fields vs
  | .updateRecord =>
    (n.read? RecordSettings.decode).elim [] fun s => criteriaLooks s.criteria vs ++ fieldLooks s.fields vs
  | .action => (n.read? ActionSettings.decode).elim [] (·.looks vs)
  -- a form, a screen and an event are awaited under texts of the settings
  | .form => (n.read? formOf).elim [] fun id => id.elim [] ([.str ·])
  | .screen => (n.read? screenOf).elim [] fun id => [.str (id.getD n.id)]
  | .timer => (n.read? TimerSettings.decode).elim [] fun s => s.scheduledTime.elim [] (Template.shown vs)
  | .event => (n.read? EventSettings.decode).elim [] (·.looks vs)
  | .subprocess => (n.read? SubprocessSettings.decode).elim [] fun s => inputMappingLooks s.inputMapping vs
  | .start | .finish | .parallel | .merge | .task | .approval | .unknown _ => []

end Node

/-! ## Texts that look at no generated id -/

namespace Renaming
variable {ρ : Renaming}

/-- nothing that is looked at holds a generated id -/
def Unseen (ρ : Renaming) (looks : List Json) : Prop := ∀ v ∈ looks, ρ.Free v

namespace Unseen
variable {looks more : List Json}

theorem left (h : ρ.Unseen (looks ++ more)) : ρ.Unseen looks := fun v hv => h v (List.mem_append_left more hv)

theorem right (h : ρ.Unseen (looks ++ more)) : ρ.Unseen more := fun v hv => h v (List.mem_append_right looks hv)

theorem one {α : Type} {as : List α} {f : α → List Json} (h : ρ.Unseen (as.flatMap f)) {a : α} (ha : a ∈ as) :
    ρ.Unseen (f a) := fun v hv => h v (List.mem_flatMap.mpr ⟨a, ha, hv⟩)

end Unseen

/-- a value that is looked up and holds no generated id is looked up in both runs -/
theorem eq_of_rel {x y : Option Json} (h : Option.Rel ρ.Value x y) (hfree : ∀ v, x = some v → ρ.Free v) : y = x := by
  cases h with
  | none => rfl
  | some hvalue => rw [hvalue.eq_of_free (hfree _ rfl)]

namespace Binds
variable {vs ws : Vars} {text : String}

theorem fill (h : ρ.Binds vs ws) (hlooks : ρ.Unseen (Template.shown vs text)) :
    Template.fill ws text = Template.fill vs text := by
  refine (Template.fill_congr fun name hname => ?_).symm
  exact (eq_of_rel (h.lookup? name) fun v hv => hlooks v (List.mem_filterMap.mpr ⟨name, hname, hv⟩)).symm

theorem evaluateText (h : ρ.Binds vs ws) (hlooks : ρ.Unseen (textLooks vs text)) :
    evaluateText ws text = evaluateText vs text := by
  refine (evaluateText_of_fill (h.fill hlooks.left).symm fun name hname => ?_).symm
  exact (eq_of_rel (Dict.Related.get? h name) fun v hv =>
    hlooks.right v (List.mem_filterMap.mpr ⟨name, hname, hv⟩)).symm

theorem evaluate (h : ρ.Binds vs ws) (hlooks : ρ.Unseen (textLooks vs text)) : evaluate ws text = evaluate vs text :=
  congrArg Evaluation.toJson (h.evaluateText hlooks)

theorem condition? (h : ρ.Binds vs ws) (hlooks : ρ.Unseen (textLooks vs text)) :
    condition? ws text = condition? vs text := by
  unfold Workflows.condition?
  rw [h.evaluateText hlooks]

theorem evaluateDeep {v : Json} (h : ρ.Binds vs ws) (hlooks : ρ.Unseen (deepLooks vs v)) :
    evaluateDeep ws v = evaluateDeep vs v := mapTexts_congr fun _ hs => h.evaluate (hlooks.one hs)

theorem fillDeep {v : Json} (h : ρ.Binds vs ws) (hlooks : ρ.Unseen (fillLooks vs v)) : fillDeep ws v = fillDeep vs v :=
  mapTexts_congr fun _ hs => congrArg Json.str (h.fill (hlooks.one hs))

theorem evaluateMembers {members : Vars} (h : ρ.Binds vs ws)
    (hlooks : ρ.Unseen (members.flatMap fun m => deepLooks vs m.2)) :
    evaluateMembers ws members = evaluateMembers vs members :=
  List.map_congr_left fun m hm => congrArg (m.1, ·) (h.evaluateDeep (hlooks.one hm))

theorem resolve (h : ρ.Binds vs ws) (v : Json) (hlooks : ρ.Unseen (resolveLooks vs v)) :
    ρ.Value (resolve vs v) (resolve ws v) := by
  match v with
  | .null | .bool _ | .int _ | .double _ | .arr _ | .obj _ => exact Value.refl _
  | .str s =>
    unfold resolveLooks at hlooks
    unfold Workflows.resolve
    simp only at hlooks ⊢
    cases hlone : lonePlaceholder? (Text.trim s) with
    | some name =>
      rcases rel_cases (h.lookup? name) with ⟨hv, hw⟩ | ⟨v, w, hv, hw, hvalue⟩
      · simp only [hv, hw]
        exact Value.refl _
      · simp only [hv, hw]
        exact hvalue
    | none =>
      rw [hlone] at hlooks
      rcases rel_cases (h.lookup? (Text.trim s)) with ⟨hv, hw⟩ | ⟨v, w, hv, hw, hvalue⟩
      · rw [hv] at hlooks
        simp only [hv, hw, Option.getD_none, h.evaluate hlooks]
        exact Value.refl _
      · simp only [hv, hw]
        exact hvalue

end Binds
end Renaming
end Workflows
