import Mathlib.Order.Bounds.Basic
import Workflows.Proofs.Json.Numbers
import Workflows.Proofs.Number.Sums

/-!
# Aggregates of integers

A list of integers is aggregated as a list of doubles, and a whole result becomes an integer again.

* `Json.Whole`   a number that equals an integer: the integer itself below `2 ^ 63`, and a double from there

Main statements: the least and the greatest of some integers are rounded (`Aggregate.min_whole`,
`Aggregate.max_whole`), and so is a sum, after every item (`Aggregate.sum_whole`).
-/

namespace Workflows

variable {x : Float} {v : Json} {m n : Int} {ns : List Int}

namespace Json

/-- the integer that a value is -/
def int? : Json → Option Int
  | .int n => some n
  | _ => none

/-- A number that equals an integer: the integer itself below `2 ^ 63`, and a double from there. -/
inductive Whole : Json → Int → Prop
  | int {n : Int} (h : n.natAbs < 2 ^ 63) : Whole (.int n) n
  | double {n : Int} {x : Float} (h : 2 ^ 63 ≤ n.natAbs) (hx : Double.units? x = some (n * Double.one)) :
    Whole (.double x) n

theorem Whole.eq_int_iff (h : Whole v n) : v = .int m ↔ n = m ∧ m.natAbs < 2 ^ 63 := by
  cases h with
  | int h =>
    rw [Json.int.injEq]
    exact ⟨fun heq => ⟨heq, heq ▸ h⟩, And.left⟩
  | double h hx => exact ⟨nofun, fun ⟨heq, hlt⟩ => absurd (heq ▸ h) (Nat.not_le.mpr hlt)⟩

theorem whole?_of_units (h : Double.units? x = some (n * Double.one)) : Double.whole? x = some n := by
  have hone : (Double.one : Int) ≠ 0 := Int.natCast_ne_zero.mpr Double.one_pos.ne'
  rw [Double.whole?, h]
  simp only
  rw [Int.mul_emod_left, if_pos rfl, Int.mul_ediv_cancel _ hone]

/-- a double with an integer value -/
theorem ofNumber_whole (h : Number.Holds x.toModel.unpack n) : Whole (ofNumber x) n := by
  have hunits := Double.units?_of_weighs h.weighs
  rw [ofNumber, whole?_of_units hunits]
  simp only
  split
  · next hlt => exact .int hlt
  · next hge =>
    rw [ofDouble, if_pos (by rw [Double.isFinite_eq, hunits]; rfl)]
    exact .double (Nat.not_lt.mp hge) hunits

end Json

namespace Aggregate
open Json

/-- The induction is on the doubles that are still to be looked at; `rank` is smaller for what is better. -/
theorem foldl_best {better : Float → Float → Bool} {rank : Int → Int} (hns : ∀ n ∈ m :: ns, n.natAbs < 2 ^ 64)
    (hbetter : ∀ a b : Int, a.natAbs < 2 ^ 64 → b.natAbs < 2 ^ 64 →
      (better (Float.ofInt a) (Float.ofInt b) = true ↔ rank a < rank b)) :
    ∃ b ∈ m :: ns, (∀ n ∈ m :: ns, rank b ≤ rank n) ∧
      (ns.map Float.ofInt).foldl (fun best y => if better y best then y else best) (Float.ofInt m) = Float.ofInt b := by
  induction ns generalizing m with
  | nil => exact ⟨m, List.mem_cons_self, fun n hn => by rw [List.mem_singleton.mp hn], rfl⟩
  | cons k ns ih =>
    obtain ⟨hm, hk, hrest⟩ : m.natAbs < 2 ^ 64 ∧ k.natAbs < 2 ^ 64 ∧ ∀ n ∈ ns, n.natAbs < 2 ^ 64 := by
      simpa only [List.forall_mem_cons] using hns
    have hiff := hbetter k m hk hm
    rw [List.map_cons, List.foldl_cons]
    by_cases hkm : rank k < rank m
    · obtain ⟨b, hb, hleast, hfold⟩ := ih (List.forall_mem_cons.mpr ⟨hk, hrest⟩)
      rw [if_pos (hiff.mpr hkm)]
      refine ⟨b, List.mem_cons_of_mem m hb, List.forall_mem_cons.mpr ⟨?_, hleast⟩, hfold⟩
      exact (hleast k List.mem_cons_self).trans hkm.le
    · obtain ⟨b, hb, hleast, hfold⟩ := ih (List.forall_mem_cons.mpr ⟨hm, hrest⟩)
      obtain ⟨hbm, hbrest⟩ := List.forall_mem_cons.mp hleast
      rw [if_neg (mt hiff.mp hkm)]
      refine ⟨b, ?_, ?_, hfold⟩
      · exact (List.mem_cons.mp hb).elim (fun heq => heq ▸ List.mem_cons_self)
          fun hb => List.mem_cons_of_mem m (List.mem_cons_of_mem k hb)
      · exact List.forall_mem_cons.mpr ⟨hbm, List.forall_mem_cons.mpr ⟨hbm.trans (not_lt.mp hkm), hbrest⟩⟩

theorem pick_whole (better : Float → Float → Bool) (rank : Int → Int) (hns : ∀ n ∈ ns, n.natAbs < 2 ^ 64)
    (hne : ns ≠ []) (hbetter : ∀ a b : Int, a.natAbs < 2 ^ 64 → b.natAbs < 2 ^ 64 →
      (better (Float.ofInt a) (Float.ofInt b) = true ↔ rank a < rank b)) :
    ∃ b ∈ ns, (∀ n ∈ ns, rank b ≤ rank n) ∧ Whole (pick better (ns.map Float.ofInt)) (Number.nearest b) := by
  cases ns with
  | nil => exact absurd rfl hne
  | cons m ns =>
    obtain ⟨b, hb, hleast, hfold⟩ := foldl_best hns hbetter
    refine ⟨b, hb, hleast, ?_⟩
    rw [List.map_cons, pick, hfold]
    exact ofNumber_whole (Number.holds_ofInt (hns b hb))

/-- **The least of some integers is rounded.** -/
theorem min_whole (hns : ∀ n ∈ ns, n.natAbs < 2 ^ 64) (hm : IsLeast {n | n ∈ ns} m) :
    Whole (Aggregate.min.of (ns.map Float.ofInt)) (Number.nearest m) := by
  obtain ⟨b, hb, hleast, hwhole⟩ := pick_whole (fun y best => y < best) Number.nearest hns
    (List.ne_nil_of_mem hm.1) fun a b ha hb => by rw [decide_eq_true_iff, Number.ofInt_lt_iff ha hb]
  have hsame : Number.nearest m = Number.nearest b := le_antisymm (Number.nearest_mono (hm.2 hb)) (hleast m hm.1)
  rw [hsame]
  exact hwhole

/-- **The greatest of some integers is rounded.** -/
theorem max_whole (hns : ∀ n ∈ ns, n.natAbs < 2 ^ 64) (hm : IsGreatest {n | n ∈ ns} m) :
    Whole (Aggregate.max.of (ns.map Float.ofInt)) (Number.nearest m) := by
  obtain ⟨b, hb, hgreatest, hwhole⟩ := pick_whole (fun y best => best < y) (fun n => -Number.nearest n) hns
    (List.ne_nil_of_mem hm.1) fun a b ha hb => by
      rw [decide_eq_true_iff, Number.ofInt_lt_iff hb ha, neg_lt_neg_iff]
  have hsame : Number.nearest m = Number.nearest b :=
    le_antisymm (neg_le_neg_iff.mp (hgreatest m hm.1)) (Number.nearest_mono (hm.2 hb))
  rw [hsame]
  exact hwhole

/-- **A sum of integers is rounded after every item.** -/
theorem sum_whole (hns : ∀ n ∈ ns, n.natAbs < 2 ^ 64) :
    Whole (Aggregate.sum.of (ns.map Float.ofInt)) (Number.roundedSum ns) :=
  ofNumber_whole (Number.total_holds hns)

end Aggregate
end Workflows
