import Mathlib
import Workflows.Number.Double

/-!
# Doubles as multiples of the smallest one

Every finite double is an integer multiple of the smallest positive one, and doubles are ordered like these integers.

* `Weighs u v`         the unpacked double `u` is `v` times the smallest positive one;
* `compare_of_weighs`  unpacked doubles are ordered by these integers;
* `weighs_unpack`      `Double.units?` reads the integer from the bits.

Main statements: finite doubles are compared like their units (`lt_iff_units`, `beq_iff_units`), and a double has units
if and only if it is finite (`isFinite_eq`).
-/

open Float.Model Float.Model.UnpackedFloat

namespace Workflows.Double

variable {m m' k k' : Nat} {v w : Int} {u u' : UnpackedFloat} {x y : Float}

/-- one is the least double with a full significand, `1022` times doubled -/
theorem one_eq : one = 2 ^ 52 * 2 ^ 1022 := by decide +kernel

theorem one_pos : 0 < one := by decide +kernel

/-- An unpacked double in units of the smallest positive one: it is zero, or has a significand of at most 53 bits, and
of exactly so many unless the exponent is the least one. -/
inductive Weighs : UnpackedFloat → Int → Prop
  | zero (s : Sign) : Weighs (.zero s) 0
  | finite (s : Sign) {m k : Nat} {v : Int} (hm : 0 < m) (hhigh : m < 2 ^ 53) (hlow : k ≠ 0 → 2 ^ 52 ≤ m)
      (hv : v = s.apply (m * 2 ^ k : Nat)) : Weighs (.finite s m (k - 1074) hm) v

theorem Weighs.unique (h : Weighs u v) (h' : Weighs u w) : v = w := by
  cases h with
  | zero s =>
    cases h'
    rfl
  | @finite s m k _ hm _ _ hv =>
    generalize he : (k - 1074 : Int) = e at h'
    cases h' with
    | @finite _ _ k' _ _ _ _ hw =>
      have hk : k = k' := by omega
      rw [hv, hw, hk]

/-! ## Order -/

theorem mul_pow_lt (hhigh : m < 2 ^ 53) (hlow : 2 ^ 52 ≤ m') (hk : k < k') : m * 2 ^ k < m' * 2 ^ k' :=
  calc m * 2 ^ k < 2 ^ 53 * 2 ^ k := Nat.mul_lt_mul_of_pos_right hhigh (Nat.two_pow_pos k)
    _ = 2 ^ 52 * 2 ^ (k + 1) := by rw [Nat.pow_succ 2 k]; omega
    _ ≤ 2 ^ 52 * 2 ^ k' := Nat.mul_le_mul_left _ (Nat.pow_le_pow_right (by decide) hk)
    _ ≤ m' * 2 ^ k' := Nat.mul_le_mul_right _ hlow

/-- positive doubles are ordered by their exponents first -/
theorem compare_then (hhigh : m < 2 ^ 53) (hlow : k ≠ 0 → 2 ^ 52 ≤ m) (hhigh' : m' < 2 ^ 53)
    (hlow' : k' ≠ 0 → 2 ^ 52 ≤ m') (hv : v = (m * 2 ^ k : Nat)) (hw : w = (m' * 2 ^ k' : Nat)) :
    (compare ((k : Int) - 1074) (k' - 1074)).then (compare m m') = compare v w := by
  rcases lt_trichotomy k k' with hlt | rfl | hgt
  · have hvw := mul_pow_lt hhigh (hlow' (by omega)) hlt
    rw [compare_lt_iff_lt.mpr (show (k : Int) - 1074 < k' - 1074 by omega), compare_lt_iff_lt.mpr (show v < w by omega)]
    rfl
  · rw [compare_eq_iff_eq.mpr rfl, Ordering.eq_then]
    have hpow : 0 < 2 ^ k := Nat.two_pow_pos k
    rcases lt_trichotomy m m' with hlt | rfl | hgt
    · have hvw := Nat.mul_lt_mul_of_pos_right hlt hpow
      rw [compare_lt_iff_lt.mpr hlt, compare_lt_iff_lt.mpr (show v < w by omega)]
    · rw [compare_eq_iff_eq.mpr rfl, compare_eq_iff_eq.mpr (show v = w by omega)]
    · have hwv := Nat.mul_lt_mul_of_pos_right hgt hpow
      rw [compare_gt_iff_gt.mpr hgt, compare_gt_iff_gt.mpr (show v > w by omega)]
  · have hwv := mul_pow_lt hhigh' (hlow (by omega)) hgt
    rw [compare_gt_iff_gt.mpr (show (k : Int) - 1074 > k' - 1074 by omega), compare_gt_iff_gt.mpr (show v > w by omega)]
    rfl

theorem compare_neg_neg (v w : Int) : (compare (-v) (-w)).swap = compare v w := by
  rw [← Std.OrientedOrd.eq_swap]
  rcases lt_trichotomy v w with hlt | rfl | hgt
  · rw [compare_lt_iff_lt.mpr hlt, compare_lt_iff_lt.mpr (show -w < -v by omega)]
  · rw [compare_eq_iff_eq.mpr rfl, compare_eq_iff_eq.mpr rfl]
  · rw [compare_gt_iff_gt.mpr hgt, compare_gt_iff_gt.mpr (show -w > -v by omega)]

theorem pos_of_positive (hm : 0 < m) (hv : v = Sign.positive.apply (m * 2 ^ k : Nat)) : 0 < v := by
  have hpos : 0 < m * 2 ^ k := Nat.mul_pos hm (Nat.two_pow_pos k)
  simp only [Sign.apply] at hv
  omega

theorem neg_of_negative (hm : 0 < m) (hv : v = Sign.negative.apply (m * 2 ^ k : Nat)) : v < 0 := by
  have hpos : 0 < m * 2 ^ k := Nat.mul_pos hm (Nat.two_pow_pos k)
  simp only [Sign.apply] at hv
  omega

/-- unpacked doubles are ordered by their signs, their exponents and their significands in turn -/
theorem compare_of_weighs (h : Weighs u v) (h' : Weighs u' w) : u.compare u' = some (compare v w) := by
  cases h with
  | zero s =>
    cases h' with
    | zero s' => rfl
    | finite s' hm' _ _ hw =>
      cases s' with
      | negative => rw [compare_gt_iff_gt.mpr (neg_of_negative hm' hw)]; rfl
      | positive => rw [compare_lt_iff_lt.mpr (pos_of_positive hm' hw)]; rfl
  | @finite s m k _ hm hhigh hlow hv =>
    cases h' with
    | zero s' =>
      cases s with
      | negative => rw [compare_lt_iff_lt.mpr (neg_of_negative hm hv)]; rfl
      | positive => rw [compare_gt_iff_gt.mpr (pos_of_positive hm hv)]; rfl
    | @finite s' m' k' _ hm' hhigh' hlow' hw =>
      cases s <;> cases s'
      case negative.negative =>
        simp only [Sign.apply] at hv hw
        have hv' : -v = (m * 2 ^ k : Nat) := by omega
        have hw' : -w = (m' * 2 ^ k' : Nat) := by omega
        rw [← compare_neg_neg, ← compare_then hhigh hlow hhigh' hlow' hv' hw']
        rfl
      case negative.positive =>
        rw [compare_lt_iff_lt.mpr ((neg_of_negative hm hv).trans (pos_of_positive hm' hw))]
        rfl
      case positive.negative =>
        rw [compare_gt_iff_gt.mpr ((neg_of_negative hm' hw).trans (pos_of_positive hm hv))]
        rfl
      case positive.positive =>
        rw [← compare_then hhigh hlow hhigh' hlow' hv hw]
        rfl

/-! ## Bits -/

section Bits
variable (b : BitVec Format.binary64.numBits)

theorem mantissa_toNat : (unpackMantissa b).toNat = b.toNat % 2 ^ 52 := by
  rw [unpackMantissa, BitVec.toNat_cast, BitVec.extractLsb_toNat]
  simp

theorem exponent_toNat : (unpackExponent b).toNat = b.toNat / 2 ^ 52 % 2 ^ 11 := by
  rw [unpackExponent, BitVec.toNat_cast, BitVec.extractLsb_toNat, Nat.shiftRight_eq_div_pow]
  rfl

theorem sign_toNat : (unpackSign b).toNat = b.toNat / 2 ^ 63 % 2 := by
  rw [unpackSign, BitVec.toNat_cast, BitVec.extractLsb_toNat, Nat.shiftRight_eq_div_pow]
  simp

end Bits

/-- the bits of a double -/
def word (x : Float) : BitVec Format.binary64.numBits := x.toModel.toBits.toBitVec

/-- the fields of a double, as numbers -/
def exponentField (x : Float) : Nat := x.toBits.toNat % signWeight / fractionCount
def fractionField (x : Float) : Nat := x.toBits.toNat % signWeight % fractionCount

theorem toNat_unpackExponent (x : Float) : (unpackExponent (word x)).toNat = exponentField x := by
  have hword : (word x).toNat = x.toBits.toNat := rfl
  rw [exponent_toNat, hword, exponentField, signWeight, fractionCount]
  omega

theorem toNat_unpackMantissa (x : Float) : (unpackMantissa (word x)).toNat = fractionField x := by
  have hword : (word x).toNat = x.toBits.toNat := rfl
  rw [mantissa_toNat, hword, fractionField, signWeight, fractionCount]
  omega

theorem ofBitVec_unpackSign (x : Float) :
    Sign.ofBitVec (unpackSign (word x)) = if isNegative x then .negative else .positive := by
  have hword : (word x).toNat = x.toBits.toNat := rfl
  have hbound : x.toBits.toNat < 2 ^ 64 := x.toBits.toNat_lt
  have hzero : unpackSign (word x) = 0#1 ↔ x.toBits.toNat < signWeight := by
    rw [← BitVec.toNat_inj, sign_toNat, hword, signWeight]
    simp
    omega
  rw [Sign.ofBitVec, isNegative]
  by_cases hlt : x.toBits.toNat < signWeight
  · rw [if_pos (hzero.mpr hlt), if_neg (by simpa using hlt)]
  · rw [if_neg (fun h => hlt (hzero.mp h)), if_pos (by simpa using hlt)]

theorem exponent_eq_ones : unpackExponent (word x) = -1#_ ↔ exponentField x = 2047 := by
  rw [← BitVec.toNat_inj, toNat_unpackExponent]
  rfl

theorem exponent_eq_zero : unpackExponent (word x) = 0#_ ↔ exponentField x = 0 := by
  rw [← BitVec.toNat_inj, toNat_unpackExponent]
  rfl

theorem mantissa_eq_zero : unpackMantissa (word x) = 0#_ ↔ fractionField x = 0 := by
  rw [← BitVec.toNat_inj, toNat_unpackMantissa]
  rfl

/-- the magnitude of a double, by its fields -/
theorem magnitude?_eq (x : Float) : magnitude? x =
    if exponentField x = 2047 then none
    else if exponentField x = 0 then some (fractionField x)
    else some ((2 ^ 52 + fractionField x) * 2 ^ (exponentField x - 1)) := rfl

theorem fractionField_lt (x : Float) : fractionField x < 2 ^ 52 := Nat.mod_lt _ (by decide)

theorem signed_apply (x : Float) (m : Nat) :
    (Sign.ofBitVec (unpackSign (word x))).apply m = if isNegative x then -(m : Int) else m := by
  rw [ofBitVec_unpackSign]
  cases isNegative x <;> rfl

theorem one_append (b : BitVec 52) : (1#1 ++ b).toNat = 2 ^ 52 + b.toNat := by
  rw [BitVec.toNat_append, ← Nat.shiftLeft_add_eq_or_of_lt b.isLt]
  rfl

/-- a double is unpacked field by field -/
theorem weighs_magnitude (h : magnitude? x = some m) :
    Weighs x.toModel.unpack (if isNegative x then -(m : Int) else m) := by
  have hfraction := fractionField_lt x
  rw [← signed_apply]
  change Weighs (UnpackedFloat.unpack .binary64 (word x)) _
  rw [magnitude?_eq] at h
  rw [UnpackedFloat.unpack]
  simp only [toNat_unpackExponent, toNat_unpackMantissa, one_append]
  split at h
  · cases h
  · next hfinite =>
    rw [if_neg (mt exponent_eq_ones.mp hfinite)]
    split at h
    · next hleast =>
      cases h
      rw [if_pos (exponent_eq_zero.mpr hleast)]
      split
      · next hzero =>
        rw [mantissa_eq_zero.mp hzero]
        cases hs : Sign.ofBitVec (unpackSign (word x)) <;> exact .zero _
      · next hzero =>
        have hpos : 0 < fractionField x := Nat.pos_of_ne_zero (mt mantissa_eq_zero.mpr hzero)
        have hexponent : ((exponentField x : Int) - ((Format.binary64.exponentBias : Nat) + (52 : Nat)) + 1) =
            (0 : Nat) - 1074 := by
          rw [hleast]
          rfl
        simp only [hexponent]
        exact .finite _ hpos (by omega) (fun h => absurd rfl h) (by rw [Nat.pow_zero, Nat.mul_one])
    · next hnormal =>
      cases h
      rw [if_neg (mt exponent_eq_zero.mp hnormal)]
      have hexponent : ((exponentField x : Int) - ((Format.binary64.exponentBias : Nat) + (52 : Nat))) =
          (exponentField x - 1 : Nat) - 1074 := by
        change (exponentField x : Int) - ((1023 : Nat) + (52 : Nat)) = _
        omega
      simp only [hexponent]
      exact .finite _ (by omega) (by omega) (fun _ => Nat.le_add_right _ _) rfl

/-! ## Values -/

theorem units?_of_magnitude (h : magnitude? x = some m) :
    units? x = some (if isNegative x then -(m : Int) else m) := by
  rw [units?, h]
  rfl

theorem units?_of_no_magnitude (h : magnitude? x = none) : units? x = none := by
  rw [units?, h]
  rfl

theorem weighs_unpack (h : units? x = some v) : Weighs x.toModel.unpack v := by
  cases hm : magnitude? x with
  | some m =>
    rw [units?_of_magnitude hm] at h
    cases h
    exact weighs_magnitude hm
  | none =>
    rw [units?_of_no_magnitude hm] at h
    cases h

/-- **Only finite doubles have units.** -/
theorem isFinite_eq (x : Float) : x.isFinite = (units? x).isSome := by
  cases hu : units? x with
  | some v =>
    have hweighs := weighs_unpack hu
    change x.toModel.unpack.isFinite = true
    generalize x.toModel.unpack = u at hweighs
    cases hweighs <;> rfl
  | none =>
    have hones : exponentField x = 2047 := by
      by_contra hne
      have hm : ∃ m, magnitude? x = some m := by
        rw [magnitude?_eq, if_neg hne]
        split <;> exact ⟨_, rfl⟩
      obtain ⟨m, hm⟩ := hm
      rw [units?_of_magnitude hm] at hu
      cases hu
    change (UnpackedFloat.unpack .binary64 (word x)).isFinite = false
    rw [UnpackedFloat.unpack]
    simp only
    rw [if_pos (exponent_eq_ones.mpr hones)]
    split <;> rfl

theorem units?_of_weighs (h : Weighs x.toModel.unpack v) : units? x = some v := by
  have hfinite : x.isFinite = true := by
    change x.toModel.unpack.isFinite = true
    generalize x.toModel.unpack = u at h
    cases h <;> rfl
  rw [isFinite_eq, Option.isSome_iff_exists] at hfinite
  obtain ⟨w, hw⟩ := hfinite
  rw [hw, (weighs_unpack hw).unique h]

/-! ### order -/

/-- **Finite doubles are ordered like their units.** -/
theorem lt_iff_units (hx : units? x = some v) (hy : units? y = some w) : x < y ↔ v < w := by
  have hmodel : x < y ↔ (x.toModel.unpack.compare y.toModel.unpack == some .lt) = true := by
    change decide (x.toModel < y.toModel) = true ↔ _
    rw [decide_eq_true_iff]
    rfl
  rw [hmodel, compare_of_weighs (weighs_unpack hx) (weighs_unpack hy), beq_iff_eq, Option.some.injEq, compare_lt_iff_lt]

theorem beq_iff_units (hx : units? x = some v) (hy : units? y = some w) : (x == y) = true ↔ v = w := by
  change (x.toModel.unpack.compare y.toModel.unpack == some .eq) = true ↔ _
  rw [compare_of_weighs (weighs_unpack hx) (weighs_unpack hy), beq_iff_eq, Option.some.injEq, compare_eq_iff_eq]

end Workflows.Double
