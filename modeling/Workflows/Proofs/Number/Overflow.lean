import Mathlib
import Workflows.Number.Read
import Workflows.Proofs.Number.Doubles

/-!
# Numbers too great for a double

A significand that is rounded to 53 bits can have an exponent that no double has.  It is packed as infinity then.

* `leastInfinite`     half a unit above the greatest double
* `isFinite_pack`     which exponents a double has
* `isFinite_rounded`  which numbers are rounded to one of these

Main statement: a decimal becomes a finite double if it is below that bound, and only then (`isFinite_scaled`).
-/

open Float.Model Float.Model.UnpackedFloat

namespace Workflows.Number

variable {m k : Nat} {e : Int}

/-- `2^1024 - 2^970`, which is as near to `2^1024` as to the greatest double -/
def leastInfinite : Nat := (2 ^ 54 - 1) * 2 ^ 970

/-! ## Packing -/

theorem isFinite_unpack (b : BitVec Format.binary64.numBits) :
    (UnpackedFloat.unpack .binary64 b).isFinite = true ↔ unpackExponent b ≠ -1#_ := by
  rw [UnpackedFloat.unpack]
  simp only
  by_cases hones : unpackExponent b = -1#_
  · rw [if_pos hones]
    split <;> simp [UnpackedFloat.isFinite, hones]
  · rw [if_neg hones]
    refine iff_of_true ?_ hones
    split
    · split <;> rfl
    · rfl

/-- the greatest exponent of a double is that of its last bit -/
theorem isFinite_pack {s : Sign} (hm : 0 < m) :
    (Float.Model.pack (.finite s m e hm)).unpack.isFinite = true ↔ e ≤ 971 := by
  change (UnpackedFloat.unpack .binary64 (UnpackedFloat.pack .binary64 (.finite s m e hm))).isFinite = true ↔ _
  have hbias : (e + Format.binary64.exponentBias + Format.binary64.mantissaBitsWithoutImplicit).toNat =
      (e + 1075).toNat := by
    change (e + (1023 : Nat) + (52 : Nat)).toNat = _
    omega
  rw [isFinite_unpack, UnpackedFloat.pack]
  simp only [hbias]
  split
  · next hgreat =>
    rw [packedInfinity, unpackExponent_packComponents]
    refine iff_of_false (fun h => h rfl) ?_
    change 2 ^ 11 ≤ _ at hgreat
    omega
  · next hsmall =>
    change ¬ 2 ^ 11 ≤ _ at hsmall
    refine iff_of_true ?_ (by omega)
    split
    · rw [unpackExponent_packComponents]
      intro hones
      have hnat := congrArg BitVec.toNat hones
      change (BitVec.ofNat 11 (e + 1075).toNat).toNat = 2047 at hnat
      rw [BitVec.toNat_ofNat] at hnat
      omega
    · rw [unpackExponent_packComponents]
      decide

theorem exponent_le_of_unpack {b : BitVec Format.binary64.numBits} {s : Sign} {hm : 0 < m}
    (h : UnpackedFloat.unpack .binary64 b = .finite s m e hm) : e ≤ 971 := by
  have hlt : (unpackExponent b).toNat < 2 ^ 11 := (unpackExponent b).isLt
  have hne : unpackExponent b ≠ -1#_ → (unpackExponent b).toNat ≠ 2047 := fun hones heq =>
    hones (BitVec.eq_of_toNat_eq heq)
  have hzero : unpackExponent b = 0#_ → (unpackExponent b).toNat = 0 := fun heq => congrArg BitVec.toNat heq
  have hbias : (Format.binary64.exponentBias : Int) = 1023 := rfl
  have hmantissa : (Format.binary64.mantissaBitsWithoutImplicit : Int) = 52 := rfl
  rw [UnpackedFloat.unpack] at h
  simp only at h
  generalize (unpackExponent b).toNat = field at h hlt hne hzero
  split at h
  · split at h <;> cases h
  · next hones =>
    have hfield := hne hones
    split at h
    · next hleast =>
      have hfield := hzero hleast
      split at h
      · cases h
      · cases h
        omega
    · cases h
      omega

/-- A double and its negation are finite together. -/
theorem isFinite_neg (x : Float) : (-x).isFinite = x.isFinite := by
  have hneg : (-x).isFinite = (Float.Model.pack x.toModel.unpack.neg).unpack.isFinite := rfl
  have hx : x.isFinite = x.toModel.unpack.isFinite := rfl
  rw [hneg, hx]
  cases hu : x.toModel.unpack with
  | infinity s => cases s <;> rfl
  | notANumber => rfl
  | zero s => cases s <;> rfl
  | finite s m e hm => exact (isFinite_pack hm).mpr (exponent_le_of_unpack hu)

/-! ## Rounding -/

theorem shiftRightOne_mantissa (em : ExtendedMantissa) : em.shiftRightOne.mantissa = em.mantissa / 2 := rfl

theorem shiftRightOne_roundBit (em : ExtendedMantissa) : em.shiftRightOne.roundBit = (em.mantissa % 2 != 0) := rfl

theorem shift_mantissa (m : Nat) (accuracy : Accuracy) (d : Nat) :
    (ExtendedMantissa.ofMantissaAndAccuracy m accuracy >>> d).mantissa = m / 2 ^ d := by
  induction d with
  | zero =>
    rw [Nat.pow_zero, Nat.div_one]
    cases accuracy with
    | exact => rfl
    | inexact order => cases order <;> rfl
  | succ d ih =>
    change (ExtendedMantissa.ofMantissaAndAccuracy m accuracy >>> d).shiftRightOne.mantissa = _
    rw [shiftRightOne_mantissa, ih, Nat.div_div_eq_div_mul, ← Nat.pow_succ]

theorem shift_roundBit (m : Nat) (accuracy : Accuracy) (d : Nat) :
    (ExtendedMantissa.ofMantissaAndAccuracy m accuracy >>> (d + 1)).roundBit = (m / 2 ^ d % 2 != 0) := by
  change (ExtendedMantissa.ofMantissaAndAccuracy m accuracy >>> d).shiftRightOne.roundBit = _
  rw [shiftRightOne_roundBit, shift_mantissa]

/-- A mantissa is rounded up behind the middle, and from the middle to an even one. -/
theorem roundedMantissa_eq (em : ExtendedMantissa) : em.roundedMantissa =
    em.mantissa + if em.roundBit && (em.stickyBit || em.mantissa % 2 != 0) then 1 else 0 := by
  obtain ⟨q, roundBit, stickyBit⟩ := em
  cases roundBit with
  | false => cases stickyBit <;> rfl
  | true =>
    cases stickyBit with
    | true => rfl
    | false =>
      simp only [ExtendedMantissa.roundedMantissa, ExtendedMantissa.accuracy, Accuracy.roundToNearestEven]
      rcases Nat.mod_two_eq_zero_or_one q with heven | hodd
      · simp [heven]
      · simp [hodd]

theorem roundedMantissa_bounds (em : ExtendedMantissa) :
    em.mantissa ≤ em.roundedMantissa ∧ em.roundedMantissa ≤ em.mantissa + 1 := by
  rw [roundedMantissa_eq]
  split
  · exact ⟨Nat.le_succ _, Nat.le_refl _⟩
  · exact ⟨Nat.le_refl _, Nat.le_succ _⟩

/-- An odd mantissa is rounded up from the middle on. -/
theorem roundedMantissa_odd {em : ExtendedMantissa} (hodd : em.mantissa % 2 = 1) :
    em.roundedMantissa = em.mantissa + if em.roundBit then 1 else 0 := by
  rw [roundedMantissa_eq, hodd, show (1 != 0) = true from rfl, Bool.or_true, Bool.and_true]

/-- the exponent in which a number is written with 53 bits, unless it is too small for that -/
def settledExponent (m : Nat) (e : Int) : Int := max e (max ((m.log2 : Int) - 52 + e) (-1074))

theorem shiftToTargetExponent_eq (m : Nat) (e : Int) (accuracy : Accuracy) :
    shiftToTargetExponent .binary64 m e accuracy =
      (ExtendedMantissa.ofMantissaAndAccuracy m accuracy >>> (settledExponent m e - e).toNat, settledExponent m e) := by
  have htarget : Format.binary64.targetExponent (totalExponent m e) = max ((m.log2 : Int) - 52 + e) (-1074) := by
    change max ((m.log2 : Int) + 1 + e - (53 : Nat)) (-1074) = _
    omega
  have hamount : (max ((m.log2 : Int) - 52 + e) (-1074) - e).toNat = (settledExponent m e - e).toNat := by
    rw [settledExponent]
    omega
  have hexponent : e + (settledExponent m e - e).toNat = settledExponent m e := by
    rw [settledExponent]
    omega
  simp only [shiftToTargetExponent, shiftToExponent, htarget, hamount, hexponent]

/-- what is left of a significand after the first rounding -/
def settledMantissa (m : Nat) (e : Int) (accuracy : Accuracy) : Nat :=
  (ExtendedMantissa.ofMantissaAndAccuracy m accuracy >>> (settledExponent m e - e).toNat).roundedMantissa

theorem isFinite_roundWithAccuracy (m : Nat) (e : Int) (accuracy : Accuracy) :
    (Float.Model.pack (roundWithAccuracy .binary64 .positive m e accuracy)).unpack.isFinite = true ↔
      settledMantissa m e accuracy = 0 ∨ settledExponent (settledMantissa m e accuracy) (settledExponent m e) ≤ 971 := by
  have hround : (ExtendedMantissa.ofMantissaAndAccuracy m accuracy >>>
      (settledExponent m e - e).toNat).roundedMantissa = settledMantissa m e accuracy := rfl
  generalize settledMantissa m e accuracy = r at hround ⊢
  generalize hfirst : settledExponent m e = e₁ at hround ⊢
  have hzero : r / 2 ^ (settledExponent r e₁ - e₁).toNat = 0 ↔ r = 0 := by
    refine ⟨fun hzero => ?_, fun hzero => by rw [hzero, Nat.zero_div]⟩
    by_contra hne
    have hlow : -1074 ≤ e₁ := by
      rw [← hfirst, settledExponent]
      omega
    have hshift : (settledExponent r e₁ - e₁).toNat ≤ r.log2 := by
      rw [settledExponent]
      omega
    have hlog := Nat.log2_self_le hne
    have hsmall := (Nat.div_eq_zero_iff.mp hzero).resolve_left (Nat.two_pow_pos _).ne'
    exact absurd ((Nat.pow_le_pow_right (by decide) hshift).trans hlog) (by omega)
  unfold roundWithAccuracy
  simp only [shiftToTargetExponent_eq, hfirst, hround, shift_mantissa]
  split
  · next h => exact iff_of_true rfl (.inl (hzero.mp h))
  · next h =>
    rw [isFinite_pack]
    exact ⟨.inr, fun hor => hor.resolve_left fun hr => h (hzero.mpr hr)⟩

theorem settledMantissa_bounds (m : Nat) (e : Int) (accuracy : Accuracy) :
    m / 2 ^ (settledExponent m e - e).toNat ≤ settledMantissa m e accuracy ∧
      settledMantissa m e accuracy ≤ m / 2 ^ (settledExponent m e - e).toNat + 1 := by
  have hbounds := roundedMantissa_bounds
    (ExtendedMantissa.ofMantissaAndAccuracy m accuracy >>> (settledExponent m e - e).toNat)
  rw [shift_mantissa] at hbounds
  exact hbounds

/-- a number below `2^1023` -/
theorem settledExponent_small (hsmall : m.log2 + e ≤ 1022) (he : e ≤ 970) (accuracy : Accuracy) :
    settledExponent (settledMantissa m e accuracy) (settledExponent m e) ≤ 971 := by
  have hfirst : settledExponent m e ≤ 970 ∧ (m.log2 : Int) - 52 + e ≤ settledExponent m e ∧ e ≤ settledExponent m e := by
    rw [settledExponent]
    omega
  have hlong : m / 2 ^ (settledExponent m e - e).toNat < 2 ^ 53 := by
    rw [Nat.div_lt_iff_lt_mul (Nat.two_pow_pos _), ← Nat.pow_add]
    exact Nat.lt_log2_self.trans_le (Nat.pow_le_pow_right (by decide) (by omega))
  have hlog : (settledMantissa m e accuracy).log2 ≤ 53 := by
    by_cases hzero : settledMantissa m e accuracy = 0
    · rw [hzero]
      decide
    · have hbounds := settledMantissa_bounds m e accuracy
      exact Nat.le_of_lt_succ ((Nat.log2_lt hzero).mpr (by omega))
  rw [settledExponent]
  omega

/-- a number from `2^1024` on -/
theorem settledExponent_great (hgreat : 1024 ≤ m.log2 + e) (he : e ≤ 970) (accuracy : Accuracy) :
    settledMantissa m e accuracy ≠ 0 ∧
      971 < settledExponent (settledMantissa m e accuracy) (settledExponent m e) := by
  have hm : m ≠ 0 := fun hzero => by
    rw [hzero, Nat.log2_zero] at hgreat
    omega
  have hfirst : settledExponent m e = (m.log2 : Int) - 52 + e := by
    rw [settledExponent]
    omega
  have hamount : (settledExponent m e - e).toNat = m.log2 - 52 := by omega
  have hlong : 2 ^ 52 ≤ m / 2 ^ (settledExponent m e - e).toNat := by
    rw [hamount, Nat.le_div_iff_mul_le (Nat.two_pow_pos _), ← Nat.pow_add,
      show 52 + (m.log2 - 52) = m.log2 by omega]
    exact Nat.log2_self_le hm
  have hbounds := settledMantissa_bounds m e accuracy
  refine ⟨by omega, ?_⟩
  rw [settledExponent]
  omega

/-- A number from `2^1023` up to `2^1024` is the last of all when its 54 first bits are ones. -/
theorem settledExponent_last (hlast : m.log2 + e = 1023) (he : e ≤ 970) (accuracy : Accuracy) :
    settledMantissa m e accuracy ≠ 0 ∧
      (settledExponent (settledMantissa m e accuracy) (settledExponent m e) ≤ 971 ↔
        m / 2 ^ (970 - e).toNat < 2 ^ 54 - 1) := by
  have hm : m ≠ 0 := fun hzero => by
    rw [hzero, Nat.log2_zero] at hlast
    omega
  have hfirst : settledExponent m e = 971 := by
    rw [settledExponent]
    omega
  have hamount : (settledExponent m e - e).toNat = (970 - e).toNat + 1 := by omega
  generalize hd : (970 - e).toNat = d at hamount ⊢
  have hhigh : m / 2 ^ d < 2 ^ 54 := by
    rw [Nat.div_lt_iff_lt_mul (Nat.two_pow_pos _), ← Nat.pow_add, show 54 + d = m.log2 + 1 by omega]
    exact Nat.lt_log2_self
  have hlow : 2 ^ 53 ≤ m / 2 ^ d := by
    rw [Nat.le_div_iff_mul_le (Nat.two_pow_pos _), ← Nat.pow_add, show 53 + d = m.log2 by omega]
    exact Nat.log2_self_le hm
  have hhalf : m / 2 ^ (d + 1) = m / 2 ^ d / 2 := by rw [Nat.pow_succ, Nat.div_div_eq_div_mul]
  have hbounds := settledMantissa_bounds m e accuracy
  rw [hamount, hhalf] at hbounds
  have hmantissa : settledExponent (settledMantissa m e accuracy) (settledExponent m e) ≤ 971 ↔
      settledMantissa m e accuracy < 2 ^ 53 := by
    rw [← Nat.log2_lt (by omega), hfirst, settledExponent]
    omega
  refine ⟨by omega, hmantissa.trans ?_⟩
  by_cases hones : m / 2 ^ d / 2 = 2 ^ 53 - 1
  · have hodd : settledMantissa m e accuracy = m / 2 ^ d / 2 + if m / 2 ^ d % 2 != 0 then 1 else 0 := by
      rw [settledMantissa, hamount, roundedMantissa_odd, shift_mantissa, shift_roundBit, hhalf]
      rw [shift_mantissa, hhalf, hones]
      decide
    rw [hodd, hones]
    rcases Nat.mod_two_eq_zero_or_one (m / 2 ^ d) with heven | heven
    · simp [heven]
      omega
    · simp [heven]
      omega
  · omega

/-- **A number is rounded to a double below the bound.**  Only its first 54 bits matter, and the number may be cut off
behind these. -/
theorem isFinite_rounded (m : Nat) (he : e ≤ 970) (accuracy : Accuracy) :
    (Float.Model.pack (roundWithAccuracy .binary64 .positive m e accuracy)).unpack.isFinite = true ↔
      m < (2 ^ 54 - 1) * 2 ^ (970 - e).toNat := by
  rw [isFinite_roundWithAccuracy, ← Nat.div_lt_iff_lt_mul (Nat.two_pow_pos _)]
  rcases lt_trichotomy ((m.log2 : Int) + e) 1023 with hsmall | hlast | hgreat
  · refine iff_of_true (.inr (settledExponent_small (by omega) he accuracy)) ?_
    rw [Nat.div_lt_iff_lt_mul (Nat.two_pow_pos _)]
    calc m < 2 ^ (53 + (970 - e).toNat) :=
          Nat.lt_log2_self.trans_le (Nat.pow_le_pow_right (by decide) (by omega))
      _ ≤ (2 ^ 54 - 1) * 2 ^ (970 - e).toNat := by
          rw [Nat.pow_add]
          exact Nat.mul_le_mul_right _ (by decide)
  · obtain ⟨hne, hfits⟩ := settledExponent_last hlast he accuracy
    rw [← hfits]
    exact or_iff_right hne
  · obtain ⟨hne, hover⟩ := settledExponent_great (m := m) (by omega) he accuracy
    have hm : m ≠ 0 := fun hzero => by
      rw [hzero, Nat.log2_zero] at hgreat
      omega
    refine iff_of_false (fun h => h.elim hne (by omega)) (Nat.not_lt.mpr ?_)
    rw [Nat.le_div_iff_mul_le (Nat.two_pow_pos _)]
    calc (2 ^ 54 - 1) * 2 ^ (970 - e).toNat ≤ 2 ^ (54 + (970 - e).toNat) := by
          rw [Nat.pow_add]
          exact Nat.mul_le_mul_right _ (by decide)
      _ ≤ 2 ^ m.log2 := Nat.pow_le_pow_right (by decide) (by omega)
      _ ≤ m := Nat.log2_self_le hm

/-! ## Powers of ten -/

/-- a positive double that can be multiplied with, and divided by, a double of the same kind -/
def isModerate : UnpackedFloat → Bool
  | .finite .positive m e _ => m < 2 ^ 53 && -100 ≤ e && e ≤ 100
  | _ => false

variable {u v : UnpackedFloat}

theorem exists_of_isModerate (h : isModerate u) :
    ∃ m e hm, u = .finite .positive m e hm ∧ m < 2 ^ 53 ∧ -100 ≤ e ∧ e ≤ 100 := by
  cases u with
  | finite s m e hm =>
    cases s with
    | positive =>
      simp only [isModerate, Bool.and_eq_true, decide_eq_true_eq] at h
      exact ⟨m, e, hm, rfl, h.1.1, h.1.2, h.2⟩
    | negative => cases h
  | _ => cases h

theorem isFinite_mul (hu : isModerate u) (hv : isModerate v) :
    (Float.Model.pack (mul .binary64 u v)).unpack.isFinite = true := by
  obtain ⟨m, e, hm, rfl, hlt, -, he⟩ := exists_of_isModerate hu
  obtain ⟨m', e', hm', rfl, hlt', -, he'⟩ := exists_of_isModerate hv
  rw [UnpackedFloat.mul]
  refine (isFinite_rounded _ (by omega) _).mpr ?_
  calc m * m' < 2 ^ 53 * 2 ^ 53 := Nat.mul_lt_mul'' hlt hlt'
    _ ≤ (2 ^ 54 - 1) * 2 ^ 100 := by decide
    _ ≤ (2 ^ 54 - 1) * 2 ^ (970 - (e + e')).toNat :=
      Nat.mul_le_mul_left _ (Nat.pow_le_pow_right (by decide) (by omega))

/-- how many zeros are put behind a dividend -/
theorem divCore_eq (m : Nat) (e : Int) (m' : Nat) (e' : Int) : ∃ d : Nat, ∃ accuracy,
    divCore .binary64 m e m' e' = (m * 2 ^ d / m', e - e' - d, accuracy) := by
  generalize htarget : min (e - e') (Format.binary64.targetExponent (totalExponent m e - totalExponent m' e')) = t
  have hle : t ≤ e - e' := by omega
  have hexponent : e - e' - (e - e' - t).toNat = t := by omega
  refine ⟨(e - e' - t).toNat, accuracyOfFraction (m * 2 ^ (e - e' - t).toNat % m') m', ?_⟩
  rw [divCore]
  simp only [htarget, Nat.shiftLeft_eq, hexponent]

/-- a quotient of significands is rounded to a double below the bound -/
theorem isFinite_div {m m' : Nat} {e e' : Int} (hm : 0 < m) (hm' : 0 < m') (he : e - e' ≤ 970) :
    (Float.Model.pack (div .binary64 (.finite .positive m e hm) (.finite .positive m' e' hm'))).unpack.isFinite = true ↔
      m < (2 ^ 54 - 1) * 2 ^ (970 - (e - e')).toNat * m' := by
  obtain ⟨d, accuracy, hcore⟩ := divCore_eq m e m' e'
  have hexponent : (970 - (e - e' - d)).toNat = (970 - (e - e')).toNat + d := by omega
  rw [UnpackedFloat.div]
  simp only [hcore]
  refine (isFinite_rounded _ (by omega) _).trans ?_
  rw [Nat.div_lt_iff_lt_mul hm', hexponent, Nat.pow_add, ← Nat.mul_assoc, Nat.mul_right_comm _ _ m']
  exact Nat.mul_lt_mul_right (Nat.two_pow_pos d)

theorem isFinite_div_moderate (hu : isModerate u) (hv : isModerate v) :
    (Float.Model.pack (div .binary64 u v)).unpack.isFinite = true := by
  obtain ⟨m, e, hm, rfl, hlt, -, he⟩ := exists_of_isModerate hu
  obtain ⟨m', e', hm', rfl, -, he', -⟩ := exists_of_isModerate hv
  refine (isFinite_div hm hm' (by omega)).mpr ?_
  calc m < 2 ^ 53 := hlt
    _ ≤ (2 ^ 54 - 1) * 2 ^ (970 - (e - e')).toNat * 1 := by
      rw [Nat.mul_one]
      exact Nat.le_mul_of_pos_right _ (Nat.two_pow_pos _) |>.trans' (by decide)
    _ ≤ (2 ^ 54 - 1) * 2 ^ (970 - (e - e')).toNat * m' := Nat.mul_le_mul_left _ hm'

theorem isModerate_powerOfTen {k : Nat} (hk : k < Float.exactlyRepresentablePowersOfTen.size) :
    isModerate Float.exactlyRepresentablePowersOfTen[k].toModel.unpack := by
  have hall : Float.exactlyRepresentablePowersOfTen.all (fun x => isModerate x.toModel.unpack) = true := by
    decide +kernel
  exact Array.all_eq_true.mp hall k hk

theorem isModerate_toFloat (hm : 0 < m) (hlt : m < 2 ^ 53) : isModerate m.toUInt64.toFloat.toModel.unpack := by
  have hholds := holds_toFloat hm hlt
  generalize m.toUInt64.toFloat.toModel.unpack = u at hholds
  generalize hv : (m : Int) = v at hholds
  cases hholds with
  | zero => omega
  | @finite s p k _ hp hlow hhigh hk hvalue =>
    cases s with
    | negative =>
      have hneg := Double.neg_of_negative hp hvalue
      omega
    | positive =>
      have hscaled : p * 2 ^ k = m * 2 ^ 52 := by
        simp only [Sign.apply] at hvalue
        omega
      have hexponent : k ≤ 52 := by
        by_contra hgreat
        have : 2 ^ 52 * 2 ^ 53 ≤ p * 2 ^ k :=
          Nat.mul_le_mul hlow (Nat.pow_le_pow_right (by decide) (by omega))
        omega
      simp only [isModerate, Bool.and_eq_true, decide_eq_true_eq]
      omega

/-! ## Decimals -/

theorem two_pow_le_ten_pow (a : Nat) : 2 ^ (13 * a) ≤ 10 ^ (4 * a) := by
  rw [Nat.pow_mul, Nat.pow_mul]
  exact Nat.pow_le_pow_left (by decide) a

theorem leastInfinite_le_pow (hk : 4 * 79 ≤ k) : leastInfinite ≤ 10 ^ k :=
  calc leastInfinite ≤ 2 ^ 54 * 2 ^ 970 := Nat.mul_le_mul_right _ (Nat.sub_le _ _)
    _ ≤ 2 ^ (13 * 79) := by
      rw [← pow_add]
      exact pow_le_pow_right₀ (by decide) (by decide)
    _ ≤ 10 ^ (4 * 79) := two_pow_le_ten_pow 79
    _ ≤ 10 ^ k := pow_le_pow_right₀ (by decide) hk

theorem lt_leastInfinite {n : Nat} (hk : k ≤ 970) (h : n < 2 ^ k) : n < leastInfinite :=
  calc n < 2 ^ k := h
    _ ≤ (2 ^ 54 - 1) * 2 ^ k := Nat.le_mul_of_pos_left _ (by decide)
    _ ≤ leastInfinite := Nat.mul_le_mul_left _ (pow_le_pow_right₀ (by decide) hk)

theorem leastInfinite_pos : 0 < leastInfinite := lt_leastInfinite (Nat.zero_le 970) (Nat.two_pow_pos 0)

theorem shifted_lt_iff (m t c a b : Nat) : m <<< a * t < c * 2 ^ (b + a) ↔ m * t < c * 2 ^ b := by
  rw [Nat.shiftLeft_eq, Nat.mul_right_comm, Nat.pow_add, ← Nat.mul_assoc]
  exact Nat.mul_lt_mul_right (Nat.two_pow_pos a)

theorem isFinite_ofScientific_nonneg (hm : 0 < m) (he : 0 ≤ e) :
    (Float.Model.ofScientific m e).unpack.isFinite = true ↔ m * 10 ^ e.toNat < leastInfinite := by
  change (Float.Model.pack (UnpackedFloat.ofScientific .binary64 m e)).unpack.isFinite = true ↔ _
  rw [UnpackedFloat.ofScientific, dif_neg hm.ne']
  split
  · next hgreat =>
    change (2 : Int) ^ 11 < e at hgreat
    refine iff_of_false (by decide) (Nat.not_lt.mpr ?_)
    calc leastInfinite ≤ 10 ^ e.toNat := leastInfinite_le_pow (by omega)
      _ ≤ m * 10 ^ e.toNat := Nat.le_mul_of_pos_left _ hm
  · rw [if_neg, UnpackedFloat.mul]
    · have hproduct := isFinite_rounded (e := -53 + 0) (m <<< 53 * 10 ^ e.toNat) (by decide) .exact
      rw [show (970 - ((-53 : Int) + 0)).toNat = 970 + 53 from rfl, shifted_lt_iff, ← leastInfinite] at hproduct
      exact hproduct
    · change ¬ e < -(2 ^ 11 + m.log2)
      omega

theorem isFinite_ofScientific_neg (hm : 0 < m) (he : e < 0) :
    (Float.Model.ofScientific m e).unpack.isFinite = true ↔ m < leastInfinite * 10 ^ (-e).toNat := by
  change (Float.Model.pack (UnpackedFloat.ofScientific .binary64 m e)).unpack.isFinite = true ↔ _
  rw [UnpackedFloat.ofScientific, dif_neg hm.ne', if_neg]
  · split
    · next hlittle =>
      change e < -(2 ^ 11 + m.log2) at hlittle
      refine iff_of_true (by decide) ?_
      calc m < 2 ^ (m.log2 + 1) := Nat.lt_log2_self
        _ ≤ 10 ^ (m.log2 + 1) := Nat.pow_le_pow_left (by decide) _
        _ ≤ 10 ^ (-e).toNat := Nat.pow_le_pow_right (by decide) (by omega)
        _ ≤ leastInfinite * 10 ^ (-e).toNat := Nat.le_mul_of_pos_left _ leastInfinite_pos
    · rw [if_neg (by omega)]
      have hpow : 0 < 10 ^ (-e).toNat := Nat.pow_pos (by decide)
      have hquotient := @isFinite_div _ _ 0 0 hm hpow (by decide)
      rw [show (970 - ((0 : Int) - 0)).toNat = 970 from rfl, ← leastInfinite] at hquotient
      exact hquotient
  · change ¬ (2 : Int) ^ 11 < e
    omega

theorem isFinite_ofScientific_up (hm : 0 < m) (k : Nat) :
    (Float.ofScientific m false k).isFinite = true ↔ m * 10 ^ k < leastInfinite := by
  rw [Float.ofScientific]
  split
  · next hfast =>
    refine iff_of_true (isFinite_mul (isModerate_toFloat hm hfast.1) (isModerate_powerOfTen _)) ?_
    calc m * 10 ^ k ≤ 2 ^ 53 * 10 ^ 22 := Nat.mul_le_mul hfast.1.le (Nat.pow_le_pow_right (by decide) hfast.2)
      _ < leastInfinite := lt_leastInfinite (k := 200) (by decide) (by decide)
  · exact isFinite_ofScientific_nonneg hm (Int.natCast_nonneg k)

theorem isFinite_ofScientific_down (hm : 0 < m) (k : Nat) :
    (Float.ofScientific m true k).isFinite = true ↔ m < leastInfinite * 10 ^ k := by
  rw [Float.ofScientific]
  split
  · next hfast =>
    refine iff_of_true (isFinite_div_moderate (isModerate_toFloat hm hfast.1) (isModerate_powerOfTen _)) ?_
    calc m < 2 ^ 53 := hfast.1
      _ ≤ leastInfinite := (lt_leastInfinite (k := 54) (by decide) (by decide)).le
      _ ≤ leastInfinite * 10 ^ k := Nat.le_mul_of_pos_right _ (Nat.pow_pos (by decide))
  · cases k with
    | zero =>
      rw [Nat.pow_zero, Nat.mul_one]
      have hone := isFinite_ofScientific_nonneg (e := 0) hm (by decide)
      rw [show (0 : Int).toNat = 0 from rfl, Nat.pow_zero, Nat.mul_one] at hone
      exact hone
    | succ k => exact isFinite_ofScientific_neg hm (Int.negSucc_lt_zero k)

/-! ### how many digits -/

theorem pow_le_of_digits (hm : m ≠ 0) : 10 ^ ((Nat.toDigits 10 m).length - 1) ≤ m := by
  by_contra hlt
  rw [Nat.not_le] at hlt
  by_cases hone : (Nat.toDigits 10 m).length - 1 = 0
  · rw [hone, Nat.pow_zero] at hlt
    omega
  · have hshort := (Nat.length_toDigits_le_iff (by decide) (Nat.pos_of_ne_zero hone)).mpr hlt
    have hpos := Nat.length_toDigits_pos (b := 10) (n := m)
    omega

theorem lt_pow_digits (m : Nat) : m < 10 ^ (Nat.toDigits 10 m).length :=
  (Nat.length_toDigits_le_iff (by decide) Nat.length_toDigits_pos).mp (Nat.le_refl _)

/-- **A decimal is read as a finite double below the bound.** -/
theorem isFinite_scaled (m : Nat) (e : Int) :
    (scaled m e).isFinite = true ↔ (m : ℚ) * 10 ^ e < leastInfinite := by
  have hten : (1 : ℚ) ≤ 10 := by norm_num
  rw [scaled]
  split
  · next hzero =>
    rw [hzero, Nat.cast_zero, zero_mul]
    exact iff_of_true rfl (Nat.cast_pos.mpr leastInfinite_pos)
  · next hm =>
    split
    · next hgreat =>
      have hdigits : (10 : ℚ) ^ (((Nat.toDigits 10 m).length - 1 : Nat) : Int) ≤ m := by
        rw [zpow_natCast]
        exact_mod_cast pow_le_of_digits hm
      refine iff_of_false (by decide) (not_lt.mpr ?_)
      calc (leastInfinite : ℚ) ≤ (10 : ℚ) ^ ((4 * 79 : Nat) : Int) := by
            rw [zpow_natCast]
            exact_mod_cast leastInfinite_le_pow (Nat.le_refl _)
        _ ≤ 10 ^ ((((Nat.toDigits 10 m).length - 1 : Nat) : Int) + e) := zpow_le_zpow_right₀ hten (by omega)
        _ = 10 ^ (((Nat.toDigits 10 m).length - 1 : Nat) : Int) * 10 ^ e := zpow_add₀ (by norm_num) _ _
        _ ≤ m * 10 ^ e := mul_le_mul_of_nonneg_right hdigits (by positivity)
    · split
      · next hlittle =>
        have hdigits : (m : ℚ) < (10 : ℚ) ^ ((Nat.toDigits 10 m).length : Int) := by
          rw [zpow_natCast]
          exact_mod_cast lt_pow_digits m
        refine iff_of_true (by decide) ?_
        calc (m : ℚ) * 10 ^ e < 10 ^ ((Nat.toDigits 10 m).length : Int) * 10 ^ e :=
              mul_lt_mul_of_pos_right hdigits (by positivity)
          _ = 10 ^ (((Nat.toDigits 10 m).length : Int) + e) := (zpow_add₀ (by norm_num) _ _).symm
          _ ≤ 1 := zpow_le_one_of_nonpos₀ hten (by omega)
          _ ≤ leastInfinite := Nat.one_le_cast.mpr leastInfinite_pos
      · split
        · next hneg =>
          have hpow : (10 : ℚ) ^ e = (10 ^ e.natAbs)⁻¹ := by
            rw [← zpow_natCast, ← zpow_neg]
            congr 1
            omega
          rw [isFinite_ofScientific_down (Nat.pos_of_ne_zero hm), hpow, ← div_eq_mul_inv, div_lt_iff₀ (by positivity)]
          exact_mod_cast Iff.rfl
        · next hnonneg =>
          have hpow : (10 : ℚ) ^ e = 10 ^ e.toNat := by
            rw [← zpow_natCast]
            congr 1
            omega
          rw [isFinite_ofScientific_up (Nat.pos_of_ne_zero hm), hpow]
          exact_mod_cast Iff.rfl

end Workflows.Number
