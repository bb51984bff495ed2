import Mathlib.Algebra.Group.Nat.Defs
import Workflows.Definition.Codec

/-!
# Reading what was written

Members are written in any order and kept in key order, and records are read field by field.  A value is read as it was
written if its parts are, and if the members of its objects are in key order already.

* `Dict.Ordered`, `Json.Ordered`: dictionaries and values that are kept as they are
* `Decode.Restores`: a value is read as it was written; one lemma for each decoder
* `Decode.fields_ofMembers`: the members of a record that are found under the names of its fields
* `Decode.Written`: reading the fields of a record that was written
-/

namespace Workflows

namespace Dict
variable {α : Type}

/-! ## Dictionaries in key order -/

/-- the keys ascend, as in every dictionary that is built by insertions -/
def Ordered (d : Dict α) : Prop := d.Pairwise fun e f => e.1 < f.1

theorem insert_ordered {d : Dict α} (h : Ordered d) (key : String) (v : α) : Ordered (insert d key v) := by
  induction d with
  | nil => exact List.pairwise_singleton _ _
  | cons e d ih =>
    obtain ⟨hhead, hrest⟩ := List.pairwise_cons.mp h
    rw [insert]
    split
    · next heq => exact List.pairwise_cons.mpr ⟨fun f hf => heq ▸ hhead f hf, hrest⟩
    · next hne =>
      split
      · next hlt =>
        refine List.pairwise_cons.mpr ⟨fun f hf => ?_, h⟩
        rcases List.mem_cons.mp hf with rfl | hf
        · exact hlt
        · exact String.lt_trans hlt (hhead f hf)
      · next hnlt =>
        refine List.pairwise_cons.mpr ⟨fun f hf => ?_, ih hrest⟩
        rcases mem_of_mem_insert hf with rfl | hf
        · exact String.not_le.mp fun hle => hne (String.le_antisymm hle (String.not_lt.mp hnlt))
        · exact hhead f hf

theorem insert_last {d : Dict α} {key : String} (value : α) (h : ∀ e ∈ d, e.1 < key) :
    insert d key value = d ++ [(key, value)] := by
  induction d with
  | nil => rfl
  | cons e d ih =>
    have hlt : e.1 < key := h e List.mem_cons_self
    have hne : key ≠ e.1 := fun heq => String.lt_irrefl key (heq ▸ hlt)
    rw [insert, if_neg hne, if_neg (String.lt_asymm hlt), ih fun f hf => h f (List.mem_cons_of_mem e hf)]
    rfl

theorem overlay_ordered {d upper : Dict α} (h : Ordered (d ++ upper)) : overlay d upper = d ++ upper := by
  induction upper generalizing d with
  | nil => exact (List.append_nil d).symm
  | cons e upper ih =>
    have hlast : insert d e.1 e.2 = d ++ [e] := by
      refine insert_last e.2 fun f hf => ?_
      exact (List.pairwise_append.mp h).2.2 f hf e List.mem_cons_self
    have hsplit : d ++ e :: upper = (d ++ [e]) ++ upper := List.append_cons d e upper
    show overlay (insert d e.1 e.2) upper = _
    rw [hlast, hsplit, ih (hsplit ▸ h)]

/-- An ordered dictionary is the dictionary of its entries. -/
theorem ofList_ordered {d : Dict α} (h : Ordered d) : ofList d = d := overlay_ordered h

/-! ## Dictionaries of entries in any order -/

theorem key_mem_keys {d : Dict α} {e : String × α} (h : e ∈ d) : e.1 ∈ keys d := List.mem_map_of_mem h

theorem insert_perm {d : Dict α} {key : String} (value : α) (h : key ∉ keys d) :
    (insert d key value).Perm ((key, value) :: d) := by
  induction d with
  | nil => exact List.Perm.refl _
  | cons e d ih =>
    have hne : key ≠ e.1 := fun heq => h (heq ▸ List.mem_cons_self)
    rw [insert, if_neg hne]
    split
    · exact List.Perm.refl _
    · have hrest := ih fun hmem => h (List.mem_cons_of_mem e.1 hmem)
      exact (hrest.cons e).trans (List.Perm.swap _ _ d)

theorem keys_perm {d d' : Dict α} (h : d.Perm d') : (keys d).Perm (keys d') := h.map _

theorem overlay_perm {d upper : Dict α} (h : (keys (d ++ upper)).Nodup) : (overlay d upper).Perm (d ++ upper) := by
  induction upper generalizing d with
  | nil => rw [List.append_nil]; exact List.Perm.refl _
  | cons e upper ih =>
    have hmoved : (d ++ e :: upper).Perm ((e :: d) ++ upper) := List.perm_middle
    have hnodup : (keys ((e :: d) ++ upper)).Nodup := (keys_perm hmoved).nodup_iff.mp h
    have hnew : e.1 ∉ keys d := by
      intro hmem
      obtain ⟨f, hf, heq⟩ := List.mem_map.mp hmem
      have hkey : f.1 ∈ keys (d ++ upper) := key_mem_keys (List.mem_append_left upper hf)
      rw [heq] at hkey
      exact (List.nodup_cons.mp hnodup).1 hkey
    have hinsert : (insert d e.1 e.2).Perm (e :: d) := insert_perm e.2 hnew
    have hkeys := (keys_perm (hinsert.append_right upper)).nodup_iff.mpr hnodup
    show (overlay (insert d e.1 e.2) upper).Perm _
    exact ((ih hkeys).trans (hinsert.append_right upper)).trans hmoved.symm

/-- A dictionary has the entries it is made of, where no key is given twice. -/
theorem ofList_perm {es : List (String × α)} (h : (keys es).Nodup) : (ofList es).Perm es := overlay_perm h

end Dict

/-! ## Values in key order -/

namespace Json

mutual
/-- the members of every object in a value are in key order -/
def Ordered : Json → Prop
  | .arr items => OrderedItems items
  | .obj members => Dict.Ordered members ∧ OrderedMembers members
  | _ => True

def OrderedItems : List Json → Prop
  | [] => True
  | v :: vs => Ordered v ∧ OrderedItems vs

def OrderedMembers : List (String × Json) → Prop
  | [] => True
  | (_, v) :: es => Ordered v ∧ OrderedMembers es
end

mutual
theorem canonical_ordered {v : Json} (h : v.Ordered) : v.canonical = v := by
  match v with
  | .null | .bool _ | .int _ | .double _ | .str _ => rfl
  | .arr items => rw [canonical, canonicalItems_ordered h]
  | .obj members => rw [canonical, canonicalMembers_ordered h.2, Dict.ofList_ordered h.1]

theorem canonicalItems_ordered {items : List Json} (h : OrderedItems items) : canonicalItems items = items := by
  match items with
  | [] => rfl
  | v :: vs => rw [canonicalItems, canonical_ordered h.1, canonicalItems_ordered h.2]

theorem canonicalMembers_ordered {members : List (String × Json)} (h : OrderedMembers members) :
    canonicalMembers members = members := by
  match members with
  | [] => rfl
  | (k, v) :: es => rw [canonicalMembers, canonical_ordered h.1, canonicalMembers_ordered h.2]
end

end Json

/-! ## Decoders -/

namespace Decode
variable {α : Type} {encode : α → Json} {d : Decoder α}

/-- a value is read as it was written -/
abbrev Restores (encode : α → Json) (d : Decoder α) (a : α) : Prop := d (encode a) = some a

theorem restores_text (s : String) : Restores .str text s := rfl

theorem restores_natural {bits n : Nat} (h : n < 2 ^ bits) : Restores .ofNat (natural bits) n := by
  have hlt : (n : Int) < (Nat.pow 2 bits : Nat) := Int.ofNat_lt.mpr h
  simp only [Restores, Json.ofNat, natural, Int.natCast_nonneg, hlt, decide_true, Bool.and_self, if_true,
    Int.toNat_natCast]

theorem restores_value {v : Json} (h : v.Ordered) : Restores id value v := congrArg some (Json.canonical_ordered h)

/-- nothing is written as null, and so no value may be -/
theorem restores_option {o : Option α} (hnull : ∀ a, o = some a → encode a ≠ .null)
    (h : ∀ a, o = some a → Restores encode d a) : Restores (Json.ofOption encode) (orNull d) o := by
  cases o with
  | none => rfl
  | some a =>
    have ha : d (encode a) = some a := h a rfl
    have hne : encode a ≠ .null := hnull a rfl
    show orNull d (encode a) = some (some a)
    unfold orNull
    split
    · next heq => exact absurd heq hne
    · rw [ha]; rfl

theorem restores_list {items : List α} (h : ∀ a ∈ items, Restores encode d a) :
    Restores (Json.ofList encode) (list d) items := by
  show (items.map encode).mapM d = some items
  induction items with
  | nil => rfl
  | cons a items ih =>
    have ha : d (encode a) = some a := h a List.mem_cons_self
    have hrest := ih fun b hb => h b (List.mem_cons_of_mem a hb)
    rw [List.map_cons, List.mapM_cons, ha, hrest]
    rfl

theorem restores_dict {m : Dict α} (hm : m.Ordered) (h : ∀ e ∈ m, Restores encode d e.2) :
    Restores (Json.ofDict encode) (dict d) m := by
  have hentries : (Dict.mapValues encode m).mapM (fun e => (d e.2).map (e.1, ·)) = some m := by
    unfold Dict.mapValues
    clear hm
    induction m with
    | nil => rfl
    | cons e m ih =>
      have he : d (encode e.2) = some e.2 := h e List.mem_cons_self
      have hrest := ih fun f hf => h f (List.mem_cons_of_mem e hf)
      rw [List.map_cons, List.mapM_cons, hrest, he]
      rfl
  show ((Dict.mapValues encode m).mapM fun e => (d e.2).map (e.1, ·)).map Dict.ofList = some m
  rw [hentries, Option.map_some, Dict.ofList_ordered hm]

theorem restores_values {items : List Json} (h : ∀ v ∈ items, v.Ordered) : Restores .arr (list value) items := by
  have hlist := restores_list fun v hv => restores_value (h v hv)
  rwa [Restores, Json.ofList, List.map_id] at hlist

theorem restores_object {vs : Vars} (hvs : vs.Ordered) (h : ∀ e ∈ vs, e.2.Ordered) : Restores .obj object vs := by
  have hdict := restores_dict hvs fun e he => restores_value (h e he)
  have hid : Dict.mapValues id vs = vs := List.map_id vs
  rwa [Restores, Json.ofDict, hid] at hdict

/-! ## Records -/

theorem filter_key {members : List (String × Json)} {p : String × Json → Bool} {e : String × Json}
    (hnodup : (Dict.keys members).Nodup) (he : e ∈ members) (hp : ∀ f ∈ members, p f = decide (f.1 = e.1)) :
    members.filter p = [e] := by
  induction members with
  | nil => cases he
  | cons f members ih =>
    obtain ⟨hnew, hnodup⟩ := List.nodup_cons.mp hnodup
    have hother : ∀ g ∈ members, g.1 ≠ f.1 := by
      intro g hg heq
      have hkey : g.1 ∈ Dict.keys members := Dict.key_mem_keys hg
      rw [heq] at hkey
      exact hnew hkey
    have hrest := fun g hg => hp g (List.mem_cons_of_mem f hg)
    rw [List.filter_cons, hp f List.mem_cons_self]
    rcases List.mem_cons.mp he with rfl | he
    · have hnone : members.filter p = [] := by
        refine List.filter_eq_nil_iff.mpr fun g hg => ?_
        rw [hrest g hg, decide_eq_true_iff]
        exact hother g hg
      rw [hnone, if_pos (decide_eq_true rfl)]
    · rw [if_neg]
      · exact ih hnodup he hrest
      · rw [decide_eq_true_iff]
        exact (hother e he).symm

/-- the fields are found in the order in which they are asked for, wherever they stand -/
theorem findFields_perm {all rest : List (String × Json)} {names : FieldNames}
    (hfound : ∀ e ∈ rest, ∀ f ∈ names, f.1 = e.1 → membersOf f all = [e.2])
    (hkeys : rest.map (·.1) = names.map (·.1)) : findFields names all = some rest := by
  induction names generalizing rest with
  | nil =>
    rw [List.map_nil, List.map_eq_nil_iff] at hkeys
    rw [hkeys]
    rfl
  | cons f names ih =>
    cases rest with
    | nil => cases hkeys
    | cons e rest =>
      obtain ⟨hkey, hkeys⟩ := List.cons.inj hkeys
      have hmembers := hfound e List.mem_cons_self f List.mem_cons_self hkey.symm
      have hrest := ih (fun e' he' f' hf' => hfound e' (List.mem_cons_of_mem e he') f' (List.mem_cons_of_mem f hf')) hkeys
      have hpair : (f.1, e.2) = e := by rw [show f.1 = e.1 from hkey.symm]
      rw [findFields, hmembers, hrest]
      exact congrArg (fun e => some (e :: rest)) hpair

/-- the fields of a record that was written with some members -/
structure Written (members : List (String × Json)) (f : Fields) : Prop where
  found : f.found = members

/-- A record is read back field by field: its fields have names of their own, and none is the other name of another. -/
theorem fields_ofMembers {names : FieldNames} {members : List (String × Json)}
    (hkeys : Dict.keys members = names.map (·.1)) (hnodup : (names.map (·.1)).Nodup)
    (hother : ∀ f ∈ names, ∀ other ∈ f.2, other ∉ names.map (·.1)) :
    ∃ f, fields names (.ofMembers members) = some f ∧ Written members f := by
  have hunique : (Dict.keys members).Nodup := hkeys ▸ hnodup
  have hperm := Dict.ofList_perm hunique
  have hfound : findFields names (Dict.ofList members) = some members := by
    refine findFields_perm (fun e he f hf hkey => ?_) hkeys
    have hsame : ∀ e' ∈ members, (e'.1 = f.1 || f.2.contains e'.1) = decide (e'.1 = e.1) := by
      intro e' he'
      have hnot : f.2.contains e'.1 = false := by
        refine Bool.eq_false_iff.mpr fun hcontains => ?_
        refine hother f hf e'.1 (List.contains_iff_mem.mp hcontains) ?_
        rw [← hkeys]
        exact Dict.key_mem_keys he'
      rw [hnot, Bool.or_false, hkey]
    have hfilter := (hperm.filter fun e' => e'.1 = f.1 || f.2.contains e'.1).trans
      (List.Perm.of_eq (filter_key hunique he hsame))
    rw [membersOf, List.perm_singleton.mp hfilter]
    rfl
  refine ⟨⟨false, members⟩, ?_, ⟨rfl⟩⟩
  show (findFields names (Dict.ofList members)).map _ = _
  rw [hfound]
  rfl

/-- a record is read back if its fields are -/
theorem record_restored {names : FieldNames} {members : List (String × Json)} {body : Fields → Option α} {a : α}
    (hkeys : Dict.keys members = names.map (·.1)) (hnodup : (names.map (·.1)).Nodup)
    (hother : ∀ f ∈ names, ∀ other ∈ f.2, other ∉ names.map (·.1))
    (h : ∀ f, Written members f → body f = some a) : (fields names (.ofMembers members) >>= body) = some a := by
  obtain ⟨f, hf, hw⟩ := fields_ofMembers hkeys hnodup hother
  rw [hf]
  exact h f hw

/-- a record whose fields have no other names -/
theorem plain_restored {names : List String} {members : List (String × Json)} {body : Fields → Option α} {a : α}
    (hkeys : Dict.keys members = names) (hnodup : names.Nodup) (h : ∀ f, Written members f → body f = some a) :
    (fields (plain names) (.ofMembers members) >>= body) = some a := by
  have hnames : (plain names).map (·.1) = names := by
    rw [plain, List.map_map]
    exact List.map_id names
  rw [← hnames] at hkeys
  refine record_restored hkeys (hnames.symm ▸ hnodup) (fun f hf other hother => ?_) h
  obtain ⟨n, -, rfl⟩ := List.mem_map.mp hf
  cases hother

namespace Written
variable {members : List (String × Json)} {f : Fields} {name : String} {v : Json} {a : α}

theorem required (h : Written members f) (hv : Dict.get? members name = some v) (ha : d v = some a) :
    f.required name d = some a := by
  rw [Fields.required, h.found, hv]
  exact ha

theorem withDefault {default : α} (h : Written members f) (hv : Dict.get? members name = some v) (ha : d v = some a) :
    f.withDefault name d default = some a := by
  rw [Fields.withDefault, h.found, hv]
  exact ha

variable {o : Option α}

theorem orNone (h : Written members f) (hv : Dict.get? members name = some v) (ho : orNull d v = some o) :
    f.orNone name d = some o := h.withDefault hv ho

theorem optional (h : Written members f) (hv : Dict.get? members name = some v) (ho : orNull d v = some o) :
    f.optional name d = some o := by
  rw [Fields.optional, h.found, hv]
  exact ho

end Written
end Decode
end Workflows
