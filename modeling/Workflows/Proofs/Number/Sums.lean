import Mathlib.Algebra.BigOperators.Group.List.Basic
import Mathlib.Algebra.Order.Group.Int
import Workflows.Json.Aggregate
import Workflows.Proofs.Number.Doubles

/-!
# Sums of integers as doubles

Two doubles with integer values are added exactly, and the sum is rounded to the nearest integer with 53 significant
bits.  A running total is rounded after every item.

* `Holds.add`        the sum of two doubles with integer values;
* `roundedSum`       a running total of integers, each of them and each total rounded;
* `total_holds`      which is what a list of doubles adds up to.

Main statement: nothing is lost while the items and the totals stay within `2^53` (`roundedSum_eq_sum`).
-/

open Float.Model Float.Model.UnpackedFloat

namespace Workflows.Number

variable {m n k : Nat} {v w : Int} {u u' : UnpackedFloat} {x y : Float} {ns : List Int}

/-! ## Rounding -/

theorem roundWithAccuracy_negative (m : Nat) (e : Int) (accuracy : Accuracy) :
    roundWithAccuracy .binary64 .negative m e accuracy =
      (roundWithAccuracy .binary64 .positive m e accuracy).neg := by
  unfold roundWithAccuracy
  simp only
  split
  · rfl
  · rfl

/-- a significand with an exponent, moved to 53 bits first where it is shorter -/
theorem holds_roundTo (hn : 0 < n) (hm : m * 2 ^ k = n * 2 ^ 52) (hbound : n.log2 < 1000) :
    Holds (UnpackedFloat.round .binary64 .positive m (k - 52)) (nearestNat n) := by
  have hpos : 0 < m := Nat.pos_of_ne_zero fun hzero => by
    rw [hzero] at hm
    omega
  have hlogs : m.log2 + k = n.log2 + 52 := by rw [← log2_mul_pow hpos, hm, log2_mul_pow hn]
  have htarget : Format.binary64.targetExponent (totalExponent m (k - 52)) = n.log2 - 52 := by
    change max ((m.log2 : Int) + 1 + (k - 52) - (53 : Nat)) (-1074) = _
    omega
  have hamount : ((k : Int) - 52 - (n.log2 - 52)).toNat = k - n.log2 := by omega
  have hexponent : (k : Int) - 52 - (k - n.log2 : Nat) = (min k n.log2 : Nat) - (52 : Nat) := by omega
  rw [UnpackedFloat.round]
  simp only [htarget, decreaseExponent, hamount, hexponent, Nat.shiftLeft_eq]
  refine holds_rounded (d := n.log2 - k) hn ?_ ?_ hbound
  · rw [Nat.mul_assoc, ← Nat.pow_add, show k - n.log2 + min k n.log2 = k by omega, hm]
  · rw [log2_mul_pow hpos]
    omega

theorem natAbs_log2_lt (h : v.natAbs < 2 ^ 200) : v.natAbs.log2 < 1000 := by
  by_cases hzero : v.natAbs = 0
  · rw [hzero]
    decide
  · exact ((Nat.log2_lt hzero).mpr h).trans (by decide)

theorem holds_normalize {a : Int} (ha : a * (2 ^ k : Nat) = v * 2 ^ 52) (hv : v.natAbs < 2 ^ 200) :
    Holds (UnpackedFloat.normalize .binary64 a (k - 52) .positive) (nearest v) := by
  have hk : 0 < 2 ^ k := Nat.two_pow_pos k
  have hscaled : a.natAbs * 2 ^ k = v.natAbs * 2 ^ 52 := by
    have habs := congrArg Int.natAbs ha
    rwa [Int.natAbs_mul, Int.natAbs_mul, Int.natAbs_natCast] at habs
  have hsign : a.sign = v.sign := by
    have hsigns := congrArg Int.sign ha
    rwa [Int.sign_mul, Int.sign_mul, Int.sign_eq_one_of_pos (Int.natCast_pos.mpr hk),
      Int.sign_eq_one_of_pos (show (0 : Int) < 2 ^ 52 by decide), Int.mul_one, Int.mul_one] at hsigns
  rw [UnpackedFloat.normalize]
  rcases lt_trichotomy a 0 with hneg | rfl | hpos
  · have hv' : v < 0 := by rwa [← Int.sign_eq_neg_one_iff_neg, ← hsign, Int.sign_eq_neg_one_iff_neg]
    have hround := (holds_roundTo (m := a.natAbs) (by omega) hscaled (natAbs_log2_lt hv)).neg
    rw [compare_lt_iff_lt.mpr hneg]
    simp only
    rw [nearest, Int.sign_eq_neg_one_of_neg hv', Int.neg_one_mul, show (-a).toNat = a.natAbs by omega,
      UnpackedFloat.round]
    simp only [roundWithAccuracy_negative]
    exact hround
  · have hv' : v = 0 := by rw [← Int.sign_eq_zero_iff_zero, ← hsign, Int.sign_zero]
    rw [hv', compare_eq_iff_eq.mpr rfl]
    exact .zero .positive
  · have hv' : 0 < v := by rwa [← Int.sign_eq_one_iff_pos, ← hsign, Int.sign_eq_one_iff_pos]
    have hround := holds_roundTo (m := a.natAbs) (by omega) hscaled (natAbs_log2_lt hv)
    rw [compare_gt_iff_gt.mpr hpos]
    simp only
    rw [nearest, Int.sign_eq_one_of_pos hv', Int.one_mul, show a.toNat = a.natAbs by omega]
    exact hround

/-! ## Addition -/

/-- what a double holds has 53 significant bits -/
theorem Holds.nearest_self (h : Holds u v) : nearest v = v := by
  cases h with
  | zero s => rfl
  | @finite s m k _ hm hlow hhigh hk hv =>
    have habs : v.natAbs * 2 ^ 52 = m * 2 ^ k := by
      have habs := congrArg Int.natAbs hv
      rw [Int.natAbs_mul] at habs
      cases s
      · rwa [Sign.apply, Int.natAbs_neg, Int.natAbs_natCast] at habs
      · rwa [Sign.apply, Int.natAbs_natCast] at habs
    have hself : nearestNat v.natAbs = v.natAbs := by
      rcases Nat.lt_or_ge k 53 with hlt | hge
      · refine nearestNat_of_lt (Nat.lt_of_mul_lt_mul_right (a := 2 ^ 52) ?_)
        rw [habs]
        calc m * 2 ^ k < 2 ^ 53 * 2 ^ k := Nat.mul_lt_mul_of_pos_right hhigh (Nat.two_pow_pos k)
          _ ≤ 2 ^ 53 * 2 ^ 52 := Nat.mul_le_mul_left _ (Nat.pow_le_pow_right (by decide) (by omega))
      · have hsplit : v.natAbs = m * 2 ^ (k - 52) := by
          refine Nat.eq_of_mul_eq_mul_right (Nat.two_pow_pos 52) ?_
          rw [habs, Nat.mul_assoc, ← Nat.pow_add, Nat.sub_add_cancel (by omega)]
        have hlog : (m * 2 ^ (k - 52)).log2 = k := by
          rw [log2_mul_pow hm, (Nat.log2_eq_iff hm.ne').mpr ⟨hlow, hhigh⟩]
          omega
        have hshift := roundShift_mul_pow m 0 (k - 52)
        rw [Nat.zero_add, roundShift_zero] at hshift
        rw [hsplit, nearestNat, hlog, hshift]
    rw [nearest, hself, Int.sign_mul_natAbs]

theorem apply_mul (s : Sign) (a b : Nat) : s.apply a * (b : Int) = s.apply (a * b : Nat) := by
  cases s
  · rw [Sign.apply, Sign.apply, Int.neg_mul, Int.natCast_mul]
  · rw [Sign.apply, Sign.apply, Int.natCast_mul]

/-- a significand with a smaller exponent -/
theorem decreased (s : Sign) {j : Nat} (hj : j ≤ k) (hv : v * 2 ^ 52 = s.apply (m * 2 ^ k : Nat)) :
    s.apply (decreaseExponent m (k - 52) (j - 52)).1 * (2 ^ j : Nat) = v * 2 ^ 52 := by
  have hamount : ((k : Int) - 52 - (j - 52)).toNat = k - j := by omega
  rw [decreaseExponent, hamount, apply_mul, Nat.shiftLeft_eq, Nat.mul_assoc, ← Nat.pow_add, Nat.sub_add_cancel hj, hv]

theorem Holds.add (h : Holds u v) (h' : Holds u' w) (hbound : (v + w).natAbs < 2 ^ 200) :
    Holds (UnpackedFloat.add .binary64 u u') (nearest (v + w)) := by
  have hself := h.nearest_self
  have hself' := h'.nearest_self
  cases h with
  | zero s =>
    rw [Int.zero_add, hself']
    cases h' with
    | zero s' => cases s <;> cases s' <;> exact .zero _
    | finite s' hm' hlow' hhigh' hk' hv' => exact .finite s' hm' hlow' hhigh' hk' hv'
  | @finite s m k _ hm hlow hhigh hk hv =>
    cases h' with
    | zero s' =>
      rw [Int.add_zero, hself]
      exact .finite s hm hlow hhigh hk hv
    | @finite s' m' k' _ hm' hlow' hhigh' hk' hv' =>
      have hleast : min (k - 52 : Int) (k' - 52) = (min k k' : Nat) - 52 := by omega
      rw [UnpackedFloat.add]
      simp only [hleast]
      refine holds_normalize ?_ hbound
      rw [Int.add_mul, decreased s (Nat.min_le_left k k') hv, decreased s' (Nat.min_le_right k k') hv', ← Int.add_mul]

/-- **The sum of two integers as doubles is the nearest to their sum.** -/
theorem holds_add (hx : Holds x.toModel.unpack v) (hy : Holds y.toModel.unpack w)
    (hbound : (v + w).natAbs < 2 ^ 200) : Holds (x + y).toModel.unpack (nearest (v + w)) := by
  have hsum := hx.add hy hbound
  have hmodel : (x + y).toModel =
      Float.Model.pack (UnpackedFloat.add .binary64 x.toModel.unpack y.toModel.unpack) := rfl
  rw [hmodel, unpack_pack hsum]
  exact hsum

/-! ## Totals -/

/-- a running total of integers, where each of them and each total is rounded -/
def roundedSum (ns : List Int) : Int := ns.foldl (fun total n => nearest (total + nearest n)) 0

/-- One more item of 64 bits does not change a total that is too large for it, so totals stay below a bound. -/
theorem rounded_step_bound {total : Int} (ht : total.natAbs ≤ 2 ^ 120) (hn : v.natAbs < 2 ^ 64) :
    (nearest (total + nearest v)).natAbs ≤ 2 ^ 120 ∧ (total + nearest v).natAbs < 2 ^ 200 := by
  have hitem : nearest (2 ^ 64) = 2 ^ 64 := by decide
  have hitem' : nearest (-2 ^ 64) = -2 ^ 64 := by decide
  have hlast : nearest (2 ^ 120 + 2 ^ 64) = 2 ^ 120 := by decide
  have hlast' : nearest (-(2 ^ 120 + 2 ^ 64)) = -2 ^ 120 := by decide
  have hhigh := nearest_mono (show v ≤ 2 ^ 64 by omega)
  have hlow := nearest_mono (show -2 ^ 64 ≤ v by omega)
  have hbound : (2 : Int) ^ 120 + 2 ^ 64 < 2 ^ 200 := by decide
  have habove := nearest_mono (show total + nearest v ≤ 2 ^ 120 + 2 ^ 64 by omega)
  have hbelow := nearest_mono (show -(2 ^ 120 + 2 ^ 64) ≤ total + nearest v by omega)
  omega

/-- The induction is on the items that are still to be added to a total. -/
theorem foldl_holds (hns : ∀ n ∈ ns, n.natAbs < 2 ^ 64) {total : Int} (ht : total.natAbs ≤ 2 ^ 120)
    (hx : Holds x.toModel.unpack total) : Holds ((ns.map Float.ofInt).foldl (· + ·) x).toModel.unpack
      (ns.foldl (fun total n => nearest (total + nearest n)) total) := by
  induction ns generalizing x total with
  | nil => exact hx
  | cons n ns ih =>
    obtain ⟨hn, hrest⟩ := List.forall_mem_cons.mp hns
    obtain ⟨hnext, hbound⟩ := rounded_step_bound ht hn
    exact ih hrest hnext (holds_add hx (holds_ofInt hn) hbound)

theorem holds_zero : Holds (0.0 : Float).toModel.unpack 0 := by
  have hzero : (0.0 : Float).toModel.unpack = .zero .positive := rfl
  rw [hzero]
  exact .zero .positive

/-- **Integers add up to their rounded sum.** -/
theorem total_holds (hns : ∀ n ∈ ns, n.natAbs < 2 ^ 64) :
    Holds (Aggregate.total (ns.map Float.ofInt)).toModel.unpack (roundedSum ns) :=
  foldl_holds hns (Nat.zero_le _) holds_zero

/-- Nothing is rounded within `2 ^ 53`. -/
theorem roundedSum_eq_sum (hitems : ∀ n ∈ ns, n.natAbs ≤ 2 ^ 53)
    (htotals : ∀ ms, ms <+: ns → ms.sum.natAbs ≤ 2 ^ 53) : roundedSum ns = ns.sum := by
  induction ns using List.reverseRecOn with
  | nil => rfl
  | append_singleton ns n ih =>
    have htotal : roundedSum ns = ns.sum :=
      ih (fun m hm => hitems m (List.mem_append_left [n] hm)) fun ms hms =>
        htotals ms (hms.trans (List.prefix_append ns [n]))
    have hitem := nearest_eq_self (hitems n (List.mem_append_right ns List.mem_cons_self))
    have hall := htotals (ns ++ [n]) (List.prefix_refl _)
    rw [List.sum_append, List.sum_singleton] at hall ⊢
    calc roundedSum (ns ++ [n]) = nearest (roundedSum ns + nearest n) := by rw [roundedSum, List.foldl_append]; rfl
      _ = nearest (ns.sum + n) := by rw [htotal, hitem]
      _ = ns.sum + n := nearest_eq_self hall

end Workflows.Number
