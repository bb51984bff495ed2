import Mathlib.Data.List.Forall2
import Workflows.Expr.Template
import Workflows.Proofs.Json.Paths
import Workflows.Store.Records

/-!
# Generated ids under other names

Two runs give other names to the ids that they generate.  A value of the one run stands beside a value of the other:
they have one form, and differ where the one holds a generated id and the other holds the same id under its other name.

* `Renaming`         the names of the generated ids in two runs
* `Renaming.Id`      an id and its other name; every id has one other name, and is the other name of one id (`Id.inj`)
* `Renaming.Value`   a value and its other form
* `Renaming.Free`    a value without generated ids has no other form than itself (`Value.eq_of_free`)
* `Renaming.Binds`   variables and their other form
-/

namespace Workflows

/-! ## Dictionaries with related values -/

namespace Dict
variable {α β : Type} {R : α → β → Prop} {d u : Dict α} {e t : Dict β} {key : String} {v : α} {w : β}

/-- the same keys, with related values -/
def Related (R : α → β → Prop) : Dict α → Dict β → Prop := List.Forall₂ fun x y => x.1 = y.1 ∧ R x.2 y.2

namespace Related

theorem get? (h : Related R d e) (key : String) : Option.Rel R (get? d key) (get? e key) := by
  induction h with
  | nil => exact .none
  | @cons x y d e hxy _ ih =>
    obtain ⟨hkey, hvalue⟩ := hxy
    rw [Dict.get?, Dict.get?, ← hkey]
    split
    · exact .some hvalue
    · exact ih

theorem insert (h : Related R d e) (key : String) (hvw : R v w) : Related R (insert d key v) (insert e key w) := by
  induction h with
  | nil => exact .cons ⟨rfl, hvw⟩ .nil
  | @cons x y d e hxy hrest ih =>
    rw [Dict.insert, Dict.insert, ← hxy.1]
    split
    · exact .cons ⟨rfl, hvw⟩ hrest
    · split
      · exact .cons ⟨rfl, hvw⟩ (.cons ⟨rfl, hxy.2⟩ hrest)
      · exact .cons ⟨rfl, hxy.2⟩ ih

theorem overlay (h : Related R d e) (hut : Related R u t) : Related R (overlay d u) (overlay e t) := by
  refine List.rel_foldl (fun d e hde x y hxy => ?_) h hut
  rw [← hxy.1]
  exact Related.insert hde x.1 hxy.2

theorem ofList (h : Related R d e) : Related R (ofList d) (ofList e) := overlay .nil h

/-- one dictionary, mapped in two ways -/
theorem mapValues {γ : Type} {f : γ → α} {g : γ → β} {d : Dict γ} (h : ∀ x ∈ d, R (f x.2) (g x.2)) :
    Related R (mapValues f d) (mapValues g d) := by
  unfold Related Dict.mapValues
  rw [List.forall₂_map_left_iff, List.forall₂_map_right_iff]
  exact List.forall₂_same.mpr fun x hx => ⟨rfl, h x hx⟩

theorem refl {S : α → α → Prop} (h : ∀ x ∈ d, S x.2 x.2) : Related S d d :=
  List.forall₂_same.mpr fun x hx => ⟨rfl, h x hx⟩

end Related
end Dict

/-! ## Lists and options of related values -/

section
variable {α β γ δ : Type} {R : α → β → Prop} {S : γ → δ → Prop} {as : List α} {bs : List β}

theorem rel_getElem? (h : List.Forall₂ R as bs) (i : Nat) : Option.Rel R as[i]? bs[i]? := by
  induction h generalizing i with
  | nil => exact .none
  | cons hab _ ih =>
    cases i with
    | zero => exact .some hab
    | succ i => exact ih i

/-- two related options are both empty, or hold related values -/
theorem rel_cases {x : Option α} {y : Option β} (h : Option.Rel R x y) :
    (x = none ∧ y = none) ∨ ∃ a b, x = some a ∧ y = some b ∧ R a b := by
  cases h with
  | none => exact .inl ⟨rfl, rfl⟩
  | some hab => exact .inr ⟨_, _, rfl, rfl, hab⟩

/-- what is chosen of two lists, where a value is chosen in both or in none -/
theorem rel_filter {p : α → Bool} {q : β → Bool} (h : List.Forall₂ R as bs) (hpq : ∀ a b, R a b → q b = p a) :
    List.Forall₂ R (as.filter p) (bs.filter q) := by
  refine List.rel_filter (fun a b hab => ?_) h
  show p a = true ↔ q b = true
  rw [hpq a b hab]

theorem rel_findSome? {f : α → Option γ} {g : β → Option δ} (h : List.Forall₂ R as bs)
    (hfg : ∀ a b, R a b → Option.Rel S (f a) (g b)) : Option.Rel S (as.findSome? f) (bs.findSome? g) := by
  induction h with
  | nil => exact .none
  | @cons a b as bs hab _ ih =>
    rw [List.findSome?_cons, List.findSome?_cons]
    rcases rel_cases (hfg a b hab) with ⟨hf, hg⟩ | ⟨c, d, hf, hg, hcd⟩
    · rw [hf, hg]
      exact ih
    · rw [hf, hg]
      exact .some hcd

theorem rel_bind {x : Option α} {y : Option β} {f : α → Option γ} {g : β → Option δ} (h : Option.Rel R x y)
    (hfg : ∀ a b, R a b → Option.Rel S (f a) (g b)) : Option.Rel S (x.bind f) (y.bind g) := by
  cases h with
  | none => exact .none
  | some hab => exact hfg _ _ hab

end

/-! ## Texts in a value -/

namespace Json

mutual
/-- the texts in a value, the keys of objects not among them -/
def texts : Json → List String
  | .str s => [s]
  | .arr items => textsOfItems items
  | .obj members => textsOfMembers members
  | _ => []

def textsOfItems : List Json → List String
  | [] => []
  | v :: vs => texts v ++ textsOfItems vs

def textsOfMembers : List (String × Json) → List String
  | [] => []
  | (_, v) :: es => texts v ++ textsOfMembers es
end

end Json

mutual
theorem mapTexts_congr {f g : String → Json} {v : Json} (h : ∀ s ∈ v.texts, f s = g s) :
    mapTexts f v = mapTexts g v := by
  match v with
  | .null | .bool _ | .int _ | .double _ => rfl
  | .str s => exact h s List.mem_cons_self
  | .arr items => rw [mapTexts, mapTexts, mapTextsItems_congr h]
  | .obj members => rw [mapTexts, mapTexts, mapTextsMembers_congr h]

theorem mapTextsItems_congr {f g : String → Json} {items : List Json} (h : ∀ s ∈ Json.textsOfItems items, f s = g s) :
    mapTextsItems f items = mapTextsItems g items := by
  match items with
  | [] => rfl
  | v :: vs =>
    have hv := mapTexts_congr fun s hs => h s (List.mem_append_left _ hs)
    have hvs := mapTextsItems_congr fun s hs => h s (List.mem_append_right _ hs)
    rw [mapTextsItems, mapTextsItems, hv, hvs]

theorem mapTextsMembers_congr {f g : String → Json} {members : List (String × Json)}
    (h : ∀ s ∈ Json.textsOfMembers members, f s = g s) : mapTextsMembers f members = mapTextsMembers g members := by
  match members with
  | [] => rfl
  | (k, v) :: es =>
    have hv := mapTexts_congr fun s hs => h s (List.mem_append_left _ hs)
    have hes := mapTextsMembers_congr fun s hs => h s (List.mem_append_right _ hs)
    rw [mapTextsMembers, mapTextsMembers, hv, hes]
end

/-! ## Renamings -/

/-- The names of the generated ids in two runs. -/
structure Renaming where
  names : Nat → String
  others : Nat → String
  names_injective : Function.Injective names
  others_injective : Function.Injective others

namespace Renaming
variable (ρ : Renaming)

/-- a text that is a generated id in neither run -/
def Foreign (s : String) : Prop := ∀ n, s ≠ ρ.names n ∧ s ≠ ρ.others n

/-- an id and its other name: ids that are not generated are the same in both runs -/
inductive Id : String → String → Prop
  | foreign {s : String} (h : ρ.Foreign s) : Id s s
  | generated (n : Nat) : Id (ρ.names n) (ρ.others n)

variable {ρ} {s t s' t' : String}

theorem Id.inj (h : ρ.Id s s') (ht : ρ.Id t t') : s = t ↔ s' = t' := by
  cases h with
  | foreign h =>
    cases ht with
    | foreign => exact Iff.rfl
    | generated n => exact ⟨fun he => absurd he (h n).1, fun he => absurd he (h n).2⟩
  | generated n =>
    cases ht with
    | foreign h => exact ⟨fun he => absurd he.symm (h n).1, fun he => absurd he.symm (h n).2⟩
    | generated m => rw [ρ.names_injective.eq_iff, ρ.others_injective.eq_iff]

variable (ρ)

mutual
/-- a value and its other form -/
def Value : Json → Json → Prop
  | .null, w => w = .null
  | .bool b, w => w = .bool b
  | .int n, w => w = .int n
  | .double x, w => w = .double x
  | .str s, w => w = .str s ∨ ∃ n, s = ρ.names n ∧ w = .str (ρ.others n)
  | .arr items, w => ∃ others, w = .arr others ∧ Items items others
  | .obj members, w => ∃ others, w = .obj others ∧ Members members others

def Items : List Json → List Json → Prop
  | [], ws => ws = []
  | v :: vs, ws => ∃ w others, ws = w :: others ∧ Value v w ∧ Items vs others

def Members : List (String × Json) → List (String × Json) → Prop
  | [], fs => fs = []
  | (k, v) :: es, fs => ∃ w others, fs = (k, w) :: others ∧ Value v w ∧ Members es others
end

/-- variables and their other form -/
abbrev Binds : Vars → Vars → Prop := Dict.Related ρ.Value

/-- a value holds no generated id -/
def Free (v : Json) : Prop := ∀ s ∈ v.texts, ρ.Foreign s

variable {ρ}

theorem items_iff {vs ws : List Json} : ρ.Items vs ws ↔ List.Forall₂ ρ.Value vs ws := by
  induction vs generalizing ws with
  | nil => rw [Items, List.forall₂_nil_left_iff]
  | cons v vs ih =>
    rw [Items, List.forall₂_cons_left_iff]
    constructor
    · rintro ⟨w, others, rfl, hv, hvs⟩
      exact ⟨w, others, hv, ih.mp hvs, rfl⟩
    · rintro ⟨w, others, hv, hvs, rfl⟩
      exact ⟨w, others, rfl, hv, ih.mpr hvs⟩

theorem members_iff {es fs : List (String × Json)} : ρ.Members es fs ↔ ρ.Binds es fs := by
  induction es generalizing fs with
  | nil => rw [Members, Binds, Dict.Related, List.forall₂_nil_left_iff]
  | cons e es ih =>
    obtain ⟨k, v⟩ := e
    rw [Members, Binds, Dict.Related, List.forall₂_cons_left_iff]
    constructor
    · rintro ⟨w, others, rfl, hv, hes⟩
      exact ⟨(k, w), others, ⟨rfl, hv⟩, ih.mp hes, rfl⟩
    · rintro ⟨⟨l, w⟩, others, ⟨hk, hv⟩, hes, rfl⟩
      exact ⟨w, others, by rw [show k = l from hk], hv, ih.mpr hes⟩

namespace Value
variable {v w : Json} {items others : List Json} {vs ws : Vars}

theorem arr (h : List.Forall₂ ρ.Value items others) : ρ.Value (.arr items) (.arr others) :=
  ⟨others, rfl, items_iff.mpr h⟩

theorem obj (h : ρ.Binds vs ws) : ρ.Value (.obj vs) (.obj ws) := ⟨ws, rfl, members_iff.mpr h⟩

theorem generated (n : Nat) : ρ.Value (.str (ρ.names n)) (.str (ρ.others n)) := .inr ⟨n, rfl, rfl⟩

theorem ofId (h : ρ.Id s t) : ρ.Value (.str s) (.str t) := by
  cases h with
  | foreign => exact .inl rfl
  | generated n => exact generated n

theorem arr_inv (h : ρ.Value (.arr items) w) : ∃ others, w = .arr others ∧ List.Forall₂ ρ.Value items others := by
  obtain ⟨others, hw, h⟩ := h
  exact ⟨others, hw, items_iff.mp h⟩

theorem obj_inv (h : ρ.Value (.obj vs) w) : ∃ ws, w = .obj ws ∧ ρ.Binds vs ws := by
  obtain ⟨ws, hw, h⟩ := h
  exact ⟨ws, hw, members_iff.mp h⟩

mutual
/-- every value has itself for another form -/
theorem refl (v : Json) : ρ.Value v v := by
  match v with
  | .null | .bool _ | .int _ | .double _ => rfl
  | .str _ => exact .inl rfl
  | .arr items => exact ⟨items, rfl, refl_items items⟩
  | .obj members => exact ⟨members, rfl, refl_members members⟩

theorem refl_items (items : List Json) : ρ.Items items items := by
  match items with
  | [] => rfl
  | v :: vs => exact ⟨v, vs, rfl, refl v, refl_items vs⟩

theorem refl_members (members : List (String × Json)) : ρ.Members members members := by
  match members with
  | [] => rfl
  | (_, v) :: es => exact ⟨v, es, rfl, refl v, refl_members es⟩
end

mutual
/-- a value without generated ids has no other form -/
theorem eq_of_free {v w : Json} (h : ρ.Value v w) (hfree : ρ.Free v) : w = v := by
  match v with
  | .null | .bool _ | .int _ | .double _ => exact h
  | .str s =>
    rcases h with h | ⟨n, hn, -⟩
    · exact h
    · exact absurd hn (hfree s List.mem_cons_self n).1
  | .arr items =>
    obtain ⟨others, rfl, h⟩ := h
    rw [eq_of_free_items h hfree]
  | .obj members =>
    obtain ⟨others, rfl, h⟩ := h
    rw [eq_of_free_members h hfree]

theorem eq_of_free_items {vs ws : List Json} (h : ρ.Items vs ws) (hfree : ∀ s ∈ Json.textsOfItems vs, ρ.Foreign s) :
    ws = vs := by
  match vs with
  | [] => exact h
  | v :: vs =>
    obtain ⟨w, others, rfl, hv, hvs⟩ := h
    rw [eq_of_free hv fun s hs => hfree s (List.mem_append_left _ hs),
      eq_of_free_items hvs fun s hs => hfree s (List.mem_append_right _ hs)]

theorem eq_of_free_members {es fs : List (String × Json)} (h : ρ.Members es fs)
    (hfree : ∀ s ∈ Json.textsOfMembers es, ρ.Foreign s) : fs = es := by
  match es with
  | [] => exact h
  | (k, v) :: es =>
    obtain ⟨w, others, rfl, hv, hes⟩ := h
    rw [eq_of_free hv fun s hs => hfree s (List.mem_append_left _ hs),
      eq_of_free_members hes fun s hs => hfree s (List.mem_append_right _ hs)]
end

/-! ### comparing values -/

mutual
/-- no form of a value is the same as a value without generated ids, unless all are -/
theorem same_free {v w e : Json} (h : ρ.Value v w) (he : ρ.Free e) : w.same e = v.same e := by
  match v with
  | .null | .bool _ | .int _ | .double _ => rw [h]
  | .str s =>
    rcases h with h | ⟨n, rfl, rfl⟩
    · rw [h]
    · cases e with
      | str t =>
        obtain ⟨hname, hother⟩ := he t List.mem_cons_self n
        show (ρ.others n == t) = (ρ.names n == t)
        rw [beq_eq_false_iff_ne.mpr hother.symm, beq_eq_false_iff_ne.mpr hname.symm]
      | _ => rfl
  | .arr items =>
    obtain ⟨others, rfl, hitems⟩ := h
    cases e with
    | arr es => exact sameItems_free hitems he
    | _ => rfl
  | .obj members =>
    obtain ⟨others, rfl, hmembers⟩ := h
    cases e with
    | obj es => exact sameMembers_free hmembers he
    | _ => rfl

theorem sameItems_free {vs ws es : List Json} (h : ρ.Items vs ws) (he : ∀ s ∈ Json.textsOfItems es, ρ.Foreign s) :
    Json.sameItems ws es = Json.sameItems vs es := by
  match vs with
  | [] => rw [h]
  | v :: vs =>
    obtain ⟨w, others, rfl, hv, hvs⟩ := h
    cases es with
    | nil => rfl
    | cons e es =>
      rw [Json.sameItems, Json.sameItems, same_free hv fun s hs => he s (List.mem_append_left _ hs),
        sameItems_free hvs fun s hs => he s (List.mem_append_right _ hs)]

theorem sameMembers_free {vs ws es : List (String × Json)} (h : ρ.Members vs ws)
    (he : ∀ s ∈ Json.textsOfMembers es, ρ.Foreign s) : Json.sameMembers ws es = Json.sameMembers vs es := by
  match vs with
  | [] => rw [h]
  | (k, v) :: vs =>
    obtain ⟨w, others, rfl, hv, hvs⟩ := h
    match es with
    | [] => rfl
    | (l, e) :: es =>
      rw [Json.sameMembers, Json.sameMembers, same_free hv fun s hs => he s (List.mem_append_left _ hs),
        sameMembers_free hvs fun s hs => he s (List.mem_append_right _ hs)]
end

/-- A value is its own other form, or holds generated ids at corresponding places. -/
theorem inv (h : ρ.Value v w) :
    w = v ∨ (∃ n, v = .str (ρ.names n) ∧ w = .str (ρ.others n)) ∨
      (∃ items others, v = .arr items ∧ w = .arr others ∧ List.Forall₂ ρ.Value items others) ∨
      ∃ vs ws, v = .obj vs ∧ w = .obj ws ∧ ρ.Binds vs ws := by
  match v with
  | .null | .bool _ | .int _ | .double _ => exact .inl h
  | .str s =>
    rcases h with h | ⟨n, rfl, rfl⟩
    · exact .inl h
    · exact .inr (.inl ⟨n, rfl, rfl⟩)
  | .arr items =>
    obtain ⟨others, hw, hitems⟩ := h.arr_inv
    exact .inr (.inr (.inl ⟨items, others, rfl, hw, hitems⟩))
  | .obj vs =>
    obtain ⟨ws, hw, hmembers⟩ := h.obj_inv
    exact .inr (.inr (.inr ⟨vs, ws, rfl, hw, hmembers⟩))

end Value

attribute [irreducible] Value

namespace Value
variable {v w : Json} {items others : List Json} {vs ws : Vars}

/-! ### reading a value -/

theorem double? (h : ρ.Value v w) : w.double? = v.double? := by
  rcases h.inv with rfl | ⟨n, rfl, rfl⟩ | ⟨items, others, rfl, rfl, -⟩ | ⟨vs, ws, rfl, rfl, -⟩
  · rfl
  · rfl
  · rfl
  · rfl

theorem rel_refl (x : Option Json) : Option.Rel ρ.Value x x := by
  cases x with
  | none => exact .none
  | some v => exact .some (refl v)

theorem step? (h : ρ.Value v w) (key : String) : Option.Rel ρ.Value (v.step? key) (w.step? key) := by
  rcases h.inv with rfl | ⟨n, rfl, rfl⟩ | ⟨items, others, rfl, rfl, hitems⟩ | ⟨vs, ws, rfl, rfl, hmembers⟩
  · exact rel_refl _
  · exact .none
  · show Option.Rel ρ.Value ((Number.readIndex? key).bind fun i => items[i]?)
      ((Number.readIndex? key).bind fun i => others[i]?)
    cases Number.readIndex? key with
    | none => exact .none
    | some i => exact rel_getElem? hitems i
  · exact hmembers.get? key

theorem walk? (h : ρ.Value v w) (steps : List String) : Option.Rel ρ.Value (v.walk? steps) (w.walk? steps) := by
  induction steps generalizing v w with
  | nil => exact .some h
  | cons k ks ih =>
    rw [Json.walk?_cons, Json.walk?_cons]
    exact rel_bind (h.step? k) fun v' w' hstep => ih hstep

theorem at? (h : ρ.Value v w) (path : String) : Option.Rel ρ.Value (v.at? path) (w.at? path) := by
  rw [Json.at?_eq_walk?, Json.at?_eq_walk?]
  exact h.walk? _

theorem member? (h : ρ.Value v w) (key : String) : Option.Rel ρ.Value (v.member? key) (w.member? key) := by
  rcases h.inv with rfl | ⟨n, rfl, rfl⟩ | ⟨items, others, rfl, rfl, -⟩ | ⟨vs, ws, rfl, rfl, hmembers⟩
  · exact rel_refl _
  · exact .none
  · exact .none
  · exact hmembers.get? key

theorem meets {e : Json} (h : ρ.Value v w) (he : ρ.Free e) : w.meets e = v.meets e := by
  unfold Json.meets
  rw [h.double?, h.same_free he]

/-- a record meets criteria without generated ids in all its forms, or in none -/
theorem satisfies {criteria : Vars} (h : ρ.Value v w) (hfree : ∀ c ∈ criteria, ρ.Free c.2) :
    w.satisfies criteria = v.satisfies criteria := by
  unfold Json.satisfies
  induction criteria with
  | nil => rfl
  | cons c criteria ih =>
    have hrest := ih fun d hd => hfree d (List.mem_cons_of_mem c hd)
    rw [List.all_cons, List.all_cons, hrest]
    rcases rel_cases (h.member? c.1) with ⟨hv, hw⟩ | ⟨actual, other, hv, hw, hactual⟩
    · rw [hv, hw]
    · have hmeets : other.meets c.2 = actual.meets c.2 := hactual.meets (hfree c List.mem_cons_self)
      simp only [hv, hw, hmeets]

end Value

namespace Binds
variable {vs ws : Vars}

theorem refl (vs : Vars) : ρ.Binds vs vs := Dict.Related.refl fun x _ => Value.refl x.2

theorem lookup? (h : ρ.Binds vs ws) (name : String) : Option.Rel ρ.Value (vs.lookup? name) (ws.lookup? name) := by
  unfold Vars.lookup?
  rcases rel_cases (Dict.Related.get? h name) with ⟨hv, hw⟩ | ⟨v, w, hv, hw, hvw⟩
  · rw [hv, hw]
    cases Json.pathSteps name with
    | nil => exact .none
    | cons first steps => exact rel_bind (Dict.Related.get? h first) fun v w hvw => hvw.walk? steps
  · rw [hv, hw]
    exact .some hvw

end Binds
end Renaming
end Workflows
