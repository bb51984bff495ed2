import Mathlib
import Workflows.Proofs.Number.Nearest
import Workflows.Proofs.Number.Units

/-!
# Integers as doubles

A double stores a sign, a significand of 53 bits and an exponent.  An integer becomes the double of the nearest
integer that has such a form, and doubles are ordered by their values.

* `Shifted`           what is left of a significand, and of the bits shifted out of it, after some shifts;
* `Holds u v`         the unpacked double `u` has the value `v`;
* `holds_round`       rounding a number gives a double with the value of the nearest;
* `units?_ofInt`      so does an integer of at most 64 bits.

Main statements: doubles made from integers are ordered like their nearest (`ofInt_lt_iff`, `ofInt_beq_iff`).
-/

open Float.Model Float.Model.UnpackedFloat

namespace Workflows.Number

variable {n k d : Nat} {v w : Int} {u u' : UnpackedFloat}

/-! ## Shifts -/

/-- What `d` shifts leave of a number: its quotient, whether the first half of the rest is in it, and whether there is
more. -/
structure Shifted (n d : Nat) (em : ExtendedMantissa) : Prop where
  mantissa : em.mantissa = n / 2 ^ d
  rest : ∃ t, 2 * (n % 2 ^ d) = (if em.roundBit then 2 ^ d else 0) + t ∧ t < 2 ^ d ∧ (em.stickyBit = true ↔ t ≠ 0)

theorem Shifted.shiftRightOne {em : ExtendedMantissa} (h : Shifted n d em) : Shifted n (d + 1) em.shiftRightOne := by
  obtain ⟨hmantissa, t, hrest, hlt, hsticky⟩ := h
  have hpow : 2 ^ (d + 1) = 2 * 2 ^ d := by rw [Nat.pow_succ, Nat.mul_comm]
  have hmod : n % 2 ^ (d + 1) = n % 2 ^ d + 2 ^ d * (n / 2 ^ d % 2) := Nat.mod_pow_succ
  have hbound : n % 2 ^ d < 2 ^ d := Nat.mod_lt _ (Nat.two_pow_pos d)
  refine ⟨?_, 2 * (n % 2 ^ d), ?_, by omega, ?_⟩
  · rw [ExtendedMantissa.shiftRightOne, hmantissa, Nat.div_div_eq_div_mul, ← Nat.pow_succ]
  · rw [hmod, hpow, ExtendedMantissa.shiftRightOne, hmantissa]
    rcases Nat.mod_two_eq_zero_or_one (n / 2 ^ d) with heven | hodd
    · simp [heven]
    · simp [hodd]
      omega
  · have hhalf : 0 < 2 ^ d := Nat.two_pow_pos d
    rw [ExtendedMantissa.shiftRightOne, hrest]
    cases hround : em.roundBit with
    | false => simpa using hsticky
    | true => simp

theorem shifted (n d : Nat) : Shifted n d ((⟨n, false, false⟩ : ExtendedMantissa) >>> d) := by
  induction d with
  | zero =>
    exact ⟨by simp [HShiftRight.hShiftRight, Nat.repeat], 0,
      by simp [HShiftRight.hShiftRight, Nat.repeat, Nat.mod_one]⟩
  | succ d ih => exact ih.shiftRightOne

theorem Shifted.roundedMantissa {em : ExtendedMantissa} (h : Shifted n d em) : em.roundedMantissa = roundShift n d := by
  obtain ⟨q, roundBit, stickyBit⟩ := em
  obtain ⟨hq, t, hrest, hlt, hsticky⟩ := h
  simp only at hq hrest hsticky
  subst hq
  cases roundBit <;> cases stickyBit <;>
    simp [ExtendedMantissa.roundedMantissa, ExtendedMantissa.accuracy, Accuracy.roundToNearestEven, roundShift] at *
  · omega
  · omega
  · split <;> omega
  · omega

/-! ## Values -/

/-- An unpacked double has the value of an integer: it is zero, or has a significand of 53 bits. -/
inductive Holds : UnpackedFloat → Int → Prop
  | zero (s : Sign) : Holds (.zero s) 0
  | finite (s : Sign) {m k : Nat} {v : Int} (hm : 0 < m) (hlow : 2 ^ 52 ≤ m) (hhigh : m < 2 ^ 53) (hk : k ≤ 1000)
      (hv : v * 2 ^ 52 = s.apply (m * 2 ^ k : Nat)) : Holds (.finite s m (k - 52) hm) v

theorem Holds.neg (h : Holds u v) : Holds u.neg (-v) := by
  cases h with
  | zero s => exact .zero (-s)
  | finite s hm hlow hhigh hk hv =>
    refine .finite (-s) hm hlow hhigh hk ?_
    rw [Int.neg_mul, hv]
    cases s <;> simp [Sign.apply]

theorem Holds.weighs (h : Holds u v) : Double.Weighs u (v * Double.one) := by
  cases h with
  | zero s =>
    rw [Int.zero_mul]
    exact .zero s
  | @finite s m k _ hm hlow hhigh _ hv =>
    have hexponent : (k - 52 : Int) = (k + 1022 : Nat) - 1074 := by omega
    rw [hexponent]
    refine .finite s hm hhigh (fun _ => hlow) ?_
    calc v * Double.one = v * 2 ^ 52 * (2 ^ 1022 : Nat) := by
          rw [Double.one_eq, Int.natCast_mul, ← Int.mul_assoc]
          rfl
      _ = s.apply (m * 2 ^ k : Nat) * (2 ^ 1022 : Nat) := by rw [hv]
      _ = s.apply (m * 2 ^ (k + 1022) : Nat) := by
          rw [Nat.pow_add, ← Nat.mul_assoc, Int.natCast_mul (m * 2 ^ k)]
          cases s
          · simp only [Sign.apply, Int.neg_mul]
          · simp only [Sign.apply]

/-! ### packing -/

theorem unpack_pack (h : Holds u v) : (Float.Model.pack u).unpack = u := by
  change UnpackedFloat.unpack .binary64 (UnpackedFloat.pack .binary64 u) = u
  cases h with
  | zero s => cases s <;> rfl
  | @finite s m k _ hm hlow hhigh hk hv =>
    have hlog : m.log2 = 52 := (Nat.log2_eq_iff hm.ne').mpr ⟨hlow, hhigh⟩
    have hexponent : ((k : Int) - 52 + Format.binary64.exponentBias + Format.binary64.mantissaBitsWithoutImplicit).toNat =
        k + 1023 := by
      change ((k : Int) - 52 + (1023 : Nat) + (52 : Nat)).toNat = k + 1023
      omega
    have hlast : BitVec.ofNat 11 (k + 1023) ≠ -1#11 := fun heq => by
      have := congrArg BitVec.toNat heq
      simp at this
      omega
    have hfirst : BitVec.ofNat 11 (k + 1023) ≠ 0#11 := fun heq => by
      have := congrArg BitVec.toNat heq
      simp at this
      omega
    have hmantissa : (1#1 ++ BitVec.ofNat 52 m).toNat = m := by
      rw [BitVec.toNat_append, ← Nat.shiftLeft_add_eq_or_of_lt (BitVec.ofNat 52 m).isLt,
        BitVec.toNat_ofNat, Nat.shiftLeft_eq]
      simp
      omega
    have hunpacked : ((BitVec.ofNat 11 (k + 1023)).toNat : Int) -
        (Format.binary64.exponentBias + Format.binary64.mantissaBitsWithoutImplicit) = k - 52 := by
      change ((BitVec.ofNat 11 (k + 1023)).toNat : Int) - ((1023 : Nat) + (52 : Nat)) = k - 52
      rw [BitVec.toNat_ofNat]
      omega
    rw [UnpackedFloat.pack]
    simp only [hlog, hexponent]
    rw [if_neg (by omega), if_pos (by decide), UnpackedFloat.unpack]
    simp only [unpackMantissa_packComponents, unpackExponent_packComponents, unpackSign_packComponents,
      Sign.ofBitVec_toBitVec]
    rw [if_neg hlast, if_neg hfirst]
    simp only [hmantissa, hunpacked]

/-! ## Rounding -/

theorem log2_mul_pow (hn : 0 < n) (k : Nat) : (n * 2 ^ k).log2 = n.log2 + k := by
  have hk : 0 < 2 ^ k := Nat.two_pow_pos k
  refine (Nat.log2_eq_iff (Nat.mul_pos hn hk).ne').mpr ⟨?_, ?_⟩
  · rw [Nat.pow_add]
    exact Nat.mul_le_mul_right _ (Nat.log2_self_le hn.ne')
  · rw [show n.log2 + k + 1 = n.log2 + 1 + k by omega, Nat.pow_add]
    exact Nat.mul_lt_mul_of_pos_right Nat.lt_log2_self hk

/-- what is left of a number is `53` bits long, or a power of two if it was rounded up -/
theorem roundShift_bounds (h : n.log2 = d + 52) : 2 ^ 52 ≤ roundShift n d ∧ roundShift n d ≤ 2 ^ 53 := by
  have hn : n ≠ 0 := by
    rintro rfl
    simp at h
  have hlow := pow_le_roundShift hn (show d ≤ n.log2 by omega)
  have hhigh := roundShift_le_pow (show d ≤ n.log2 by omega)
  rw [show n.log2 - d = 52 by omega] at hlow
  rw [show n.log2 + 1 - d = 53 by omega] at hhigh
  exact ⟨hlow, hhigh⟩

/-- zeros behind a number change nothing about its first bits -/
theorem roundShift_scaled (h : n.log2 + k = d + 52) :
    roundShift (n * 2 ^ k) d * 2 ^ n.log2 = nearestNat n * 2 ^ 52 := by
  rcases Nat.lt_or_ge n.log2 52 with hlt | hge
  · have hn : n < 2 ^ 53 := Nat.lt_log2_self.trans_le (Nat.pow_le_pow_right (by decide) (by omega))
    have hzeros : n * 2 ^ k = n * 2 ^ (52 - n.log2) * 2 ^ d := by
      rw [Nat.mul_assoc, ← Nat.pow_add]
      congr 2
      omega
    have hshift := roundShift_mul_pow (n * 2 ^ (52 - n.log2)) 0 d
    rw [Nat.zero_add, roundShift_zero] at hshift
    rw [hzeros, hshift, nearestNat_of_lt hn, Nat.mul_assoc, ← Nat.pow_add]
    congr 2
    omega
  · rw [show d = n.log2 - 52 + k by omega, roundShift_mul_pow, nearestNat, Nat.mul_assoc, ← Nat.pow_add]
    congr 2
    omega

theorem shiftToTargetExponent_exact {e : Int} (h : n.log2 = d + 52) (he : -1074 ≤ e + d) :
    shiftToTargetExponent .binary64 n e .exact = ((⟨n, false, false⟩ : ExtendedMantissa) >>> d, e + d) := by
  have htarget : Format.binary64.targetExponent (totalExponent n e) = e + d := by
    change max ((n.log2 : Int) + 1 + e - (53 : Nat)) (-1074) = e + d
    omega
  have hamount : (e + d - e).toNat = d := by omega
  simp only [shiftToTargetExponent, htarget, shiftToExponent, hamount]
  rfl

/-- rounding up can lead to a power of two, which takes one more shift -/
theorem exists_shift_eq (hlow : 2 ^ 52 ≤ n) (hhigh : n ≤ 2 ^ 53) :
    ∃ c, c ≤ 1 ∧ n.log2 = c + 52 ∧ 2 ^ 52 ≤ n / 2 ^ c ∧ n / 2 ^ c < 2 ^ 53 ∧ n / 2 ^ c * 2 ^ c = n := by
  rcases Nat.lt_or_eq_of_le hhigh with hlt | rfl
  · refine ⟨0, by decide, (Nat.log2_eq_iff (by omega)).mpr ⟨hlow, hlt⟩, ?_, ?_, ?_⟩ <;> simp <;> omega
  · exact ⟨1, by decide⟩

/-- a number that is written with some power of two, rounded to 53 bits -/
theorem holds_rounded {m a b : Nat} (hn : 0 < n) (hm : m * 2 ^ a = n * 2 ^ b) (h : m.log2 = d + 52)
    (hbound : n.log2 < 1000) :
    Holds (roundWithAccuracy .binary64 .positive m (a - b) .exact) (nearestNat n) := by
  have hpos : 0 < m := Nat.pos_of_ne_zero fun hzero => by
    rw [hzero] at h
    simp at h
  have hlogs : m.log2 + a = n.log2 + b := by rw [← log2_mul_pow hpos, hm, log2_mul_pow hn]
  have hvalue : roundShift m d * 2 ^ n.log2 = nearestNat n * 2 ^ 52 := by
    rw [← roundShift_mul_pow m d a, hm]
    exact roundShift_scaled (by omega)
  have hrounded := (shifted m d).roundedMantissa
  have hfirst := shiftToTargetExponent_exact (e := a - b) h (by omega)
  obtain ⟨c, hc, hlog', hlow, hhigh, hexact⟩ := (roundShift_bounds h).elim exists_shift_eq
  have hmantissa := (shifted (roundShift m d) c).mantissa
  have hsecond := shiftToTargetExponent_exact (e := a - b + d) hlog' (by omega)
  have hexponent : (a - b + d + c : Int) = ((n.log2 + c : Nat) : Int) - 52 := by omega
  have hne : roundShift m d / 2 ^ c ≠ 0 := by omega
  unfold roundWithAccuracy
  simp only [hfirst, hrounded, hsecond, hmantissa, hne, dite_false, hexponent]
  refine .finite .positive (Nat.pos_of_ne_zero hne) hlow hhigh (by omega) ?_
  rw [Sign.apply, Nat.add_comm, Nat.pow_add, ← Nat.mul_assoc, hexact, hvalue]
  push_cast
  rfl

theorem holds_round (hn : 0 < n) (h : n.log2 + k = d + 52) (hbound : n.log2 < 1000) :
    Holds (roundWithAccuracy .binary64 .positive (n * 2 ^ k) (-k) .exact) (nearestNat n) := by
  have hrounded := holds_rounded (a := 0) hn (Nat.mul_one (n * 2 ^ k)) ((log2_mul_pow hn k).trans h) hbound
  rw [Nat.cast_zero, Int.zero_sub] at hrounded
  exact hrounded

/-! ## Integers -/

/-- a number of at most 53 bits is shifted to 53 bits -/
theorem unpackedOfNat_eq (hn : 0 < n) (hlog : n.log2 ≤ 52) : UnpackedFloat.ofNat .binary64 n =
    roundWithAccuracy .binary64 .positive (n * 2 ^ (52 - n.log2)) (-(52 - n.log2 : Nat)) .exact := by
  have htarget : Format.binary64.targetExponent (totalExponent n 0) = -(52 - n.log2 : Nat) := by
    change max ((n.log2 : Int) + 1 + 0 - (53 : Nat)) (-1074) = _
    omega
  rw [UnpackedFloat.ofNat, UnpackedFloat.ofInt, UnpackedFloat.normalize, compare_gt_iff_gt.mpr (Int.natCast_pos.mpr hn)]
  simp only [UnpackedFloat.round, Int.toNat_natCast, htarget, decreaseExponent, Int.zero_sub, Int.neg_neg, Nat.shiftLeft_eq]

theorem holds_toFloat (hn : 0 < n) (h : n < 2 ^ 53) : Holds n.toUInt64.toFloat.toModel.unpack n := by
  have hlog : n.log2 ≤ 52 := by
    have := (Nat.log2_lt hn.ne').mpr h
    omega
  have hround := holds_round (k := 52 - n.log2) (d := 0) hn (by omega) (by omega)
  rw [nearestNat_of_lt h, ← unpackedOfNat_eq hn hlog] at hround
  have hnat : n.toUInt64.toNat = n := by
    rw [Nat.toUInt64_eq, UInt64.toNat_ofNat']
    omega
  have hmodel : n.toUInt64.toFloat.toModel = Float.Model.pack (UnpackedFloat.ofNat .binary64 n.toUInt64.toNat) := rfl
  rw [hmodel, hnat, unpack_pack hround]
  exact hround

/-- the double `1` -/
def one : UnpackedFloat := .finite .positive (2 ^ 52) ((0 : Nat) - 52) (by decide)

theorem unpack_one : (Float.ofBits 0x3FF0000000000000).toModel.unpack = one := by
  have hone : Holds one 1 := .finite .positive (by decide) (by decide) (by decide) (by decide) (by decide)
  exact unpack_pack hone

theorem Holds.mul_one (h : Holds u n) (hn : 0 < n) (hlt : n < 2 ^ 53) : Holds (mul .binary64 u one) n := by
  generalize hv : (n : Int) = v at h
  cases h with
  | zero => omega
  | @finite s m k _ hm hlow hhigh hk hvalue =>
    cases s with
    | negative =>
      have hneg := Double.neg_of_negative hm hvalue
      omega
    | positive =>
      simp only [Sign.apply] at hvalue
      have hscaled : m * 2 ^ k = n * 2 ^ 52 := by omega
      have hlog : k = n.log2 := by
        have hlogs := congrArg Nat.log2 hscaled
        rw [log2_mul_pow hm, log2_mul_pow hn, (Nat.log2_eq_iff hm.ne').mpr ⟨hlow, hhigh⟩] at hlogs
        omega
      have hle : k ≤ 52 := by
        have := (Nat.log2_lt hn.ne').mpr hlt
        omega
      have hm' : m * 2 ^ 52 = n * 2 ^ (104 - k) := by
        refine Nat.eq_of_mul_eq_mul_right (Nat.two_pow_pos k) ?_
        rw [Nat.mul_right_comm, hscaled, Nat.mul_assoc, Nat.mul_assoc, ← Nat.pow_add, ← Nat.pow_add]
        congr 2
        omega
      have hexponent : (k - 52 + -52 : Int) = -(104 - k : Nat) := by omega
      have hround := holds_round (k := 104 - k) (d := 52) hn (by omega) (by omega)
      rw [nearestNat_of_lt hlt, ← hm', ← hexponent] at hround
      rw [← hv]
      exact hround

theorem holds_ofNat (h : n < 2 ^ 64) : Holds (Float.ofNat n).toModel.unpack (nearestNat n) := by
  by_cases hzero : n = 0
  · rw [hzero]
    exact .zero .positive
  have hn : 0 < n := Nat.pos_of_ne_zero hzero
  have hlog : n.log2 < 64 := (Nat.log2_lt hzero).mpr h
  have hofNat : Float.ofNat n = Float.ofScientific n false 0 := rfl
  by_cases hsmall : n < 2 ^ 53
  · have hproduct := (holds_toFloat hn hsmall).mul_one hn hsmall
    have hmodel : (Float.ofNat n).toModel = Float.Model.pack (mul .binary64 n.toUInt64.toFloat.toModel.unpack one) := by
      rw [← unpack_one, hofNat, Float.ofScientific, dif_pos ⟨hsmall, by decide⟩]
      rfl
    rw [hmodel, unpack_pack hproduct, nearestNat_of_lt hsmall]
    exact hproduct
  · have hround := holds_round (k := 53) (d := n.log2 + 1) hn (by omega) (by omega)
    have hmodel : (Float.ofNat n).toModel =
        Float.Model.pack (roundWithAccuracy .binary64 .positive (n * 2 ^ 53) (-(53 : Nat)) .exact) := by
      rw [hofNat, Float.ofScientific, dif_neg (fun hand => hsmall hand.1)]
      change Float.Model.pack (UnpackedFloat.ofScientific .binary64 n 0) = _
      have hfew : ¬(0 : Int) < -(2 ^ Format.binary64.exponentBits + n.log2) := by
        change ¬(0 : Int) < -(2 ^ 11 + n.log2)
        omega
      rw [UnpackedFloat.ofScientific, dif_neg hzero, if_neg (by decide), if_neg hfew, if_pos (by decide)]
      change Float.Model.pack (roundWithAccuracy .binary64 .positive ((n <<< 53) * 1) (-53 + 0) .exact) = _
      rw [Nat.shiftLeft_eq, Nat.mul_one]
      rfl
    rw [hmodel, unpack_pack hround]
    exact hround

theorem holds_ofInt (h : v.natAbs < 2 ^ 64) : Holds (Float.ofInt v).toModel.unpack (nearest v) := by
  cases v with
  | ofNat n =>
    rw [Int.ofNat_eq_natCast, nearest_natCast]
    exact holds_ofNat h
  | negSucc n =>
    have hneg := (holds_ofNat h).neg
    have hmodel : (Float.ofInt (.negSucc n)).toModel.unpack = (Float.ofNat (n + 1)).toModel.unpack.neg := unpack_pack hneg
    rw [hmodel, Int.negSucc_eq, nearest_neg, ← Int.natCast_succ, nearest_natCast]
    exact hneg

/-! ### order -/

/-- **An integer becomes the double of its nearest.** -/
theorem units?_ofInt (h : v.natAbs < 2 ^ 64) : Double.units? (Float.ofInt v) = some (nearest v * Double.one) :=
  Double.units?_of_weighs (holds_ofInt h).weighs

theorem ofInt_lt_iff (hv : v.natAbs < 2 ^ 64) (hw : w.natAbs < 2 ^ 64) :
    Float.ofInt v < Float.ofInt w ↔ nearest v < nearest w := by
  rw [Double.lt_iff_units (units?_ofInt hv) (units?_ofInt hw), Int.mul_lt_mul_right (Int.natCast_pos.mpr Double.one_pos)]

theorem ofInt_beq_iff (hv : v.natAbs < 2 ^ 64) (hw : w.natAbs < 2 ^ 64) :
    (Float.ofInt v == Float.ofInt w) = true ↔ nearest v = nearest w := by
  rw [Double.beq_iff_units (units?_ofInt hv) (units?_ofInt hw), Int.mul_eq_mul_right_iff (Int.natCast_ne_zero.mpr Double.one_pos.ne')]

end Workflows.Number
