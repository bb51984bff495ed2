import Mathlib.Algebra.Order.Ring.Int
import Mathlib.Data.Nat.Log

/-!
# Integers with 53 significant bits

A double has 53 significant bits, so of the integers beyond `2^53` it only holds some.

* `roundShift`           a number without its last bits, rounded to the nearest and in the middle to the even;
* `roundShift_nearest`   which no other number without these bits is nearer to;
* `nearest`              the integer with 53 significant bits that is nearest.

Main statements: integers up to `2^53` are their own nearest (`nearest_eq_self`), and rounding keeps the order
(`nearest_mono`).
-/

namespace Workflows.Number

/-- `n / 2 ^ s`, rounded to the nearest and in the middle to the even -/
def roundShift (n s : Nat) : Nat :=
  if 2 * (n % 2 ^ s) < 2 ^ s ∨ 2 * (n % 2 ^ s) = 2 ^ s ∧ n / 2 ^ s % 2 = 0 then n / 2 ^ s else n / 2 ^ s + 1

/-- the nearest number with 53 significant bits: all further bits are rounded away -/
def nearestNat (n : Nat) : Nat := roundShift n (n.log2 - 52) * 2 ^ (n.log2 - 52)

/-- the nearest integer with 53 significant bits -/
def nearest (a : Int) : Int := a.sign * nearestNat a.natAbs

variable {m n s k : Nat} {a b : Int}

/-! ## Without the last bits -/

@[simp] theorem roundShift_zero (n : Nat) : roundShift n 0 = n := by simp [roundShift, Nat.mod_one]

theorem le_roundShift (n s : Nat) : n / 2 ^ s ≤ roundShift n s := by
  unfold roundShift
  split <;> omega

theorem roundShift_le (n s : Nat) : roundShift n s ≤ n / 2 ^ s + 1 := by
  unfold roundShift
  split <;> omega

/-- no multiple of `2 ^ s` is nearer than the rounded one -/
theorem roundShift_nearest (n s q : Nat) :
    ((n : Int) - (roundShift n s * 2 ^ s : Nat)).natAbs ≤ ((n : Int) - (q * 2 ^ s : Nat)).natAbs := by
  have hn : 2 ^ s * (n / 2 ^ s) + n % 2 ^ s = n := Nat.div_add_mod n (2 ^ s)
  have hrest : n % 2 ^ s < 2 ^ s := Nat.mod_lt _ (Nat.two_pow_pos s)
  have hnext : (n / 2 ^ s + 1) * 2 ^ s = 2 ^ s * (n / 2 ^ s) + 2 ^ s := by rw [Nat.succ_mul, Nat.mul_comm]
  have hside : q * 2 ^ s ≤ 2 ^ s * (n / 2 ^ s) ∨ (n / 2 ^ s + 1) * 2 ^ s ≤ q * 2 ^ s := by
    rcases Nat.lt_or_ge (n / 2 ^ s) q with hlt | hge
    · exact .inr (Nat.mul_le_mul_right _ hlt)
    · exact .inl (Nat.mul_comm _ _ ▸ Nat.mul_le_mul_left _ hge)
  unfold roundShift
  split
  · rw [Nat.mul_comm (n / 2 ^ s)]
    omega
  · rw [hnext]
    omega

theorem roundShift_mono (h : m ≤ n) (s : Nat) : roundShift m s ≤ roundShift n s := by
  have hquot : m / 2 ^ s ≤ n / 2 ^ s := Nat.div_le_div_right h
  rcases Nat.lt_or_eq_of_le hquot with hlt | heq
  · calc roundShift m s ≤ m / 2 ^ s + 1 := roundShift_le m s
      _ ≤ n / 2 ^ s := hlt
      _ ≤ roundShift n s := le_roundShift n s
  · have hrest : m % 2 ^ s ≤ n % 2 ^ s := by
      have hm := Nat.div_add_mod m (2 ^ s)
      have hn := Nat.div_add_mod n (2 ^ s)
      rw [heq] at hm
      omega
    unfold roundShift
    rw [heq]
    split <;> split <;> omega

/-- zeros behind a number are shifted out -/
theorem roundShift_mul_pow (n s k : Nat) : roundShift (n * 2 ^ k) (s + k) = roundShift n s := by
  have hk : 0 < 2 ^ k := Nat.two_pow_pos k
  have hmod : n * 2 ^ k % 2 ^ (s + k) = n % 2 ^ s * 2 ^ k := by rw [Nat.pow_add, Nat.mul_mod_mul_right]
  have hdiv : n * 2 ^ k / 2 ^ (s + k) = n / 2 ^ s := by rw [Nat.pow_add, Nat.mul_div_mul_right _ _ hk]
  have hlt : 2 * (n % 2 ^ s * 2 ^ k) < 2 ^ (s + k) ↔ 2 * (n % 2 ^ s) < 2 ^ s := by
    rw [Nat.pow_add, ← Nat.mul_assoc, Nat.mul_lt_mul_right hk]
  have heq : 2 * (n % 2 ^ s * 2 ^ k) = 2 ^ (s + k) ↔ 2 * (n % 2 ^ s) = 2 ^ s := by
    rw [Nat.pow_add, ← Nat.mul_assoc, Nat.mul_left_inj hk.ne']
  simp only [roundShift, hmod, hdiv, hlt, heq]

/-! ### powers of two around a number -/

theorem pow_le_roundShift (hn : n ≠ 0) (hs : s ≤ n.log2) : 2 ^ (n.log2 - s) ≤ roundShift n s := by
  refine le_trans ?_ (le_roundShift n s)
  rw [Nat.le_div_iff_mul_le (Nat.two_pow_pos s), ← Nat.pow_add, Nat.sub_add_cancel hs]
  exact Nat.log2_self_le hn

theorem roundShift_le_pow (hs : s ≤ n.log2) : roundShift n s ≤ 2 ^ (n.log2 + 1 - s) := by
  refine (roundShift_le n s).trans (Nat.succ_le_of_lt ?_)
  rw [Nat.div_lt_iff_lt_mul (Nat.two_pow_pos s), ← Nat.pow_add, Nat.sub_add_cancel (by omega)]
  exact Nat.lt_log2_self

/-! ## The nearest -/

theorem nearestNat_of_lt (h : n < 2 ^ 53) : nearestNat n = n := by
  have hlog : n.log2 - 52 = 0 := by
    by_cases hn : n = 0
    · rw [hn]; rfl
    · have := (Nat.log2_lt hn).mpr h
      omega
  rw [nearestNat, hlog, roundShift_zero, Nat.pow_zero, Nat.mul_one]

theorem le_nearestNat (hn : n ≠ 0) : 2 ^ n.log2 ≤ nearestNat n := by
  have hpow : 2 ^ n.log2 = 2 ^ (n.log2 - (n.log2 - 52)) * 2 ^ (n.log2 - 52) := by
    rw [← Nat.pow_add, Nat.sub_add_cancel (Nat.sub_le _ _)]
  rw [nearestNat, hpow]
  exact Nat.mul_le_mul_right _ (pow_le_roundShift hn (Nat.sub_le _ _))

theorem nearestNat_le (n : Nat) : nearestNat n ≤ 2 ^ (n.log2 + 1) := by
  have hpow : 2 ^ (n.log2 + 1) = 2 ^ (n.log2 + 1 - (n.log2 - 52)) * 2 ^ (n.log2 - 52) := by
    rw [← Nat.pow_add, Nat.sub_add_cancel (by omega)]
  rw [nearestNat, hpow]
  exact Nat.mul_le_mul_right _ (roundShift_le_pow (Nat.sub_le _ _))

theorem nearestNat_mono (h : m ≤ n) : nearestNat m ≤ nearestNat n := by
  by_cases hm : m = 0
  · rw [hm, nearestNat_of_lt (by decide)]
    exact Nat.zero_le _
  have hn : n ≠ 0 := by omega
  have hlog : m.log2 ≤ n.log2 := (Nat.le_log2 hn).mpr ((Nat.log2_self_le hm).trans h)
  rcases Nat.lt_or_eq_of_le hlog with hlt | heq
  · -- a power of two stands between them
    calc nearestNat m ≤ 2 ^ (m.log2 + 1) := nearestNat_le m
      _ ≤ 2 ^ n.log2 := Nat.pow_le_pow_right (by decide) hlt
      _ ≤ nearestNat n := le_nearestNat hn
  · rw [nearestNat, nearestNat, heq]
    exact Nat.mul_le_mul_right _ (roundShift_mono h _)

theorem nearest_natCast (n : Nat) : nearest n = nearestNat n := by
  cases n with
  | zero => rfl
  | succ n => rw [nearest, Int.natAbs_natCast, Int.sign_eq_one_of_pos (Int.natCast_pos.mpr n.succ_pos), Int.one_mul]

theorem nearest_neg (a : Int) : nearest (-a) = -nearest a := by
  rw [nearest, nearest, Int.sign_neg, Int.natAbs_neg, Int.neg_mul]

/-- integers up to `2 ^ 53` are doubles -/
theorem nearest_eq_self (h : a.natAbs ≤ 2 ^ 53) : nearest a = a := by
  have hself : nearestNat a.natAbs = a.natAbs := by
    rcases Nat.lt_or_eq_of_le h with hlt | heq
    · exact nearestNat_of_lt hlt
    · rw [heq]; decide
  rw [nearest, hself, Int.sign_mul_natAbs]

/-- **Rounding keeps the order.** -/
theorem nearest_mono (h : a ≤ b) : nearest a ≤ nearest b := by
  have hnat : ∀ m n : Nat, m ≤ n → nearest m ≤ nearest n := fun m n hmn => by
    rw [nearest_natCast, nearest_natCast]
    exact Int.ofNat_le.mpr (nearestNat_mono hmn)
  have hsign : ∀ n : Nat, 0 ≤ nearest n := fun n => by
    rw [nearest_natCast]
    exact Int.natCast_nonneg _
  obtain ⟨m, rfl | rfl⟩ := Int.eq_nat_or_neg a <;> obtain ⟨n, rfl | rfl⟩ := Int.eq_nat_or_neg b
  · exact hnat m n (by omega)
  · have hm : m = 0 := by omega
    have hn : n = 0 := by omega
    rw [hm, hn]
    decide
  · have := hsign m
    have := hsign n
    rw [nearest_neg]
    omega
  · have := hnat n m (by omega)
    rw [nearest_neg, nearest_neg]
    omega

/-- no other integer is rounded to one below `2 ^ 53` -/
theorem eq_of_nearest_eq (hb : b.natAbs < 2 ^ 53) (h : nearest a = nearest b) : a = b := by
  rw [nearest_eq_self hb.le] at h
  have hfirst : nearest (2 ^ 53) = 2 ^ 53 := nearest_eq_self (by decide)
  have hlast : nearest (-2 ^ 53) = -2 ^ 53 := nearest_eq_self (by decide)
  by_cases ha : a.natAbs ≤ 2 ^ 53
  · rw [nearest_eq_self ha] at h
    exact h
  · rcases le_total 0 a with hpos | hneg
    · have hge : nearest (2 ^ 53) ≤ nearest a := nearest_mono (by omega)
      omega
    · have hle : nearest a ≤ nearest (-2 ^ 53) := nearest_mono (by omega)
      omega

end Workflows.Number
