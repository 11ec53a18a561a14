import Autoscaling.Json.Value
import Autoscaling.Proofs.Decimal.Bits
import Autoscaling.Proofs.Decimal.Nearest

/-!
# The doubles of numerals

A numeral is computed as a product or a quotient of two exact doubles where that is possible, and
by the model otherwise.  Either way the double is that of the size in whose interval the number
lies.  The double of an integer that JSON text can hold is finite.
-/

namespace Autoscaling

open Float.Model Float.Model.UnpackedFloat

namespace Magnitude

/-- A size lies in its own interval. -/
theorem near_self (v : Magnitude) : v.Near (v.mantissa * 2 ^ v.exponent) := by
  have hpos := two_zpow_pos v.exponent
  have hbelow : (0 : ℚ) < v.quartersBelow / 4 := by
    rcases v.quartersBelow_cases with ⟨hbelow, -⟩ | ⟨hbelow, -⟩ <;> rw [hbelow] <;> norm_num
  exact ⟨mul_le_mul_of_nonneg_right (by linarith) hpos.le,
    mul_le_mul_of_nonneg_right (by linarith) hpos.le,
    fun _ => ⟨mul_lt_mul_of_pos_right (by linarith) hpos,
      mul_lt_mul_of_pos_right (by linarith) hpos⟩⟩

theorem log2_shiftLeft {m : Nat} (hm : m ≠ 0) (k : Nat) : (m <<< k).log2 = m.log2 + k := by
  rw [Nat.shiftLeft_eq, Nat.log2_eq_iff (Nat.mul_ne_zero hm (Nat.two_pow_pos k).ne'), Nat.pow_add,
    Nat.add_right_comm, Nat.pow_add]
  exact ⟨Nat.mul_le_mul_right _ (Nat.log2_self_le hm),
    Nat.mul_lt_mul_of_pos_right Nat.lt_log2_self (Nat.two_pow_pos k)⟩

/-- A number is rounded to the size in whose interval it lies, also if its mantissa is too short. -/
theorem Near.round_eq {v : Magnitude} {m : Nat} {e : Int} (fits : v.Fits)
    (near : v.Near (m * 2 ^ e)) (hm : m ≠ 0) (sign : Sign) :
    UnpackedFloat.round Format.binary64 sign m e = v.unpacked sign := by
  let k := (e - roundingExponent m e).toNat
  have hlog : (m <<< k).log2 = m.log2 + k := log2_shiftLeft hm k
  have hle : e - k ≤ roundingExponent (m <<< k) (e - k) := by
    have h₁ := roundingExponent_eq (m <<< k) (e - k)
    have h₂ := roundingExponent_eq m e
    omega
  have hvalue : (m * 2 ^ e : ℚ) / 2 ^ (e - k) = (m <<< k : Nat) := by
    have h := (two_zpow_pos (e - k)).ne'
    rw [div_eq_iff h, Nat.shiftLeft_eq]
    push_cast
    rw [mul_assoc, ← zpow_natCast, ← two_zpow_add]
    congr 2
    omega
  have stands : Represents (.ofMantissaAndAccuracy (m <<< k) .exact)
      ((m * 2 ^ e : ℚ) / 2 ^ (e - k)) := hvalue ▸ .of_exact _
  show roundWithAccuracy Format.binary64 sign (m <<< k) (e - k) .exact = _
  rw [roundWithAccuracy_eq _ _ hle, near.roundedSize_eq fits hle stands]

/-! ## Whole numbers -/

/-- The size of a whole number that a double has. -/
def ofNat (n : Nat) : Magnitude :=
  ⟨n * 2 ^ (52 - n.log2) / 2 ^ (n.log2 - 52), n.log2 - 52⟩

/-- Whether a whole number is a size that a double has. -/
def IsExact (n : Nat) : Prop := n ≠ 0 ∧ 2 ^ (n.log2 - 52) ∣ n

instance (n : Nat) : Decidable (IsExact n) := inferInstanceAs (Decidable (_ ∧ _))

theorem isExact_of_lt {n : Nat} (hpos : n ≠ 0) (hlt : n < 2 ^ 53) : IsExact n := by
  refine ⟨hpos, ?_⟩
  have hlog : n.log2 < 53 := (Nat.log2_lt hpos).mpr hlt
  rw [show n.log2 - 52 = 0 by omega]
  exact one_dvd n

variable {n : Nat}

theorem IsExact.mantissa_mul (exact : IsExact n) :
    (ofNat n).mantissa * 2 ^ (n.log2 - 52) = n * 2 ^ (52 - n.log2) :=
  Nat.div_mul_cancel (exact.2.mul_right _)

theorem IsExact.value (exact : IsExact n) :
    ((ofNat n).mantissa * 2 ^ (ofNat n).exponent : ℚ) = n := by
  have hmul : ((ofNat n).mantissa * 2 ^ (n.log2 - 52) : ℚ) = n * 2 ^ (52 - n.log2) := by
    exact_mod_cast exact.mantissa_mul
  have hexponent : (2 : ℚ) ^ (ofNat n).exponent * 2 ^ (52 - n.log2) = 2 ^ (n.log2 - 52) := by
    rw [← zpow_natCast, ← zpow_natCast, ← two_zpow_add]
    congr 1
    simp only [ofNat]
    omega
  have hpow : (0 : ℚ) < 2 ^ (52 - n.log2) := by positivity
  refine mul_right_cancel₀ hpow.ne' ?_
  rw [mul_assoc, hexponent, hmul]

theorem IsExact.bounds (exact : IsExact n) :
    2 ^ 52 ≤ (ofNat n).mantissa ∧ (ofNat n).mantissa < 2 ^ 53 := by
  have hmul := exact.mantissa_mul
  have hlow := Nat.log2_self_le exact.1
  have hhigh : n < 2 ^ (n.log2 + 1) := Nat.lt_log2_self
  have hpow : 0 < 2 ^ (n.log2 - 52) := Nat.two_pow_pos _
  constructor
  · refine Nat.le_of_mul_le_mul_right ?_ hpow
    rw [hmul, ← Nat.pow_add]
    calc 2 ^ (52 + (n.log2 - 52)) = 2 ^ n.log2 * 2 ^ (52 - n.log2) := by
          rw [← Nat.pow_add]
          congr 1
          omega
      _ ≤ n * 2 ^ (52 - n.log2) := Nat.mul_le_mul_right _ hlow
  · refine Nat.lt_of_mul_lt_mul_right (a := 2 ^ (n.log2 - 52)) ?_
    rw [hmul, ← Nat.pow_add]
    calc n * 2 ^ (52 - n.log2) < 2 ^ (n.log2 + 1) * 2 ^ (52 - n.log2) :=
          Nat.mul_lt_mul_of_pos_right hhigh (Nat.two_pow_pos _)
      _ = 2 ^ (53 + (n.log2 - 52)) := by
          rw [← Nat.pow_add]
          congr 1
          omega

theorem IsExact.fits (exact : IsExact n) : (ofNat n).Fits := by
  obtain ⟨hlow, hhigh⟩ := exact.bounds
  refine ⟨by omega, hhigh, ?_, .inl hlow⟩
  simp only [ofNat, leastExponent]
  omega

/-- The interval of the size of a whole number has the whole number. -/
theorem IsExact.near (exact : IsExact n) : (ofNat n).Near n := by
  have near := near_self (ofNat n)
  rwa [exact.value] at near

theorem unpack_toFloat {m : Nat} (hm : m ≠ 0) (hlt : m < 2 ^ 53) :
    m.toUInt64.toFloat.toModel.unpack = (ofNat m).unpacked .positive := by
  have exact := isExact_of_lt hm hlt
  have hround : UnpackedFloat.ofUInt64 Format.binary64 m.toUInt64 =
      UnpackedFloat.round Format.binary64 .positive m 0 := by
    have hword : m.toUInt64.toNat = m := UInt64.toNat_ofNat_of_lt' (by
      show m < 2 ^ 64
      omega)
    have hcompare : compare (m : Int) 0 = .gt := compare_gt_iff_gt.mpr (by omega)
    simp only [UnpackedFloat.ofUInt64, UnpackedFloat.ofNat, UnpackedFloat.ofInt,
      UnpackedFloat.normalize, hword, hcompare, Int.toNat_natCast]
  have near := exact.near
  rw [← mul_one (m : ℚ), ← zpow_zero (2 : ℚ)] at near
  have hlog : m.log2 < 53 := (Nat.log2_lt hm).mpr hlt
  have hgreatest : (ofNat m).exponent ≤ 971 := by
    simp only [ofNat]
    omega
  show UnpackedFloat.unpack Format.binary64
    (UnpackedFloat.pack Format.binary64 (UnpackedFloat.ofUInt64 Format.binary64 m.toUInt64)) = _
  rw [hround, near.round_eq exact.fits hm]
  exact exact.fits.unpack_pack hgreatest .positive

/-! ## Powers of ten -/

theorem toBits_powerOfTen : ∀ k : Fin Float.exactlyRepresentablePowersOfTen.size,
    IsExact (10 ^ k.val) ∧ (ofNat (10 ^ k.val)).exponent ≤ 971 ∧
      Float.exactlyRepresentablePowersOfTen[k].toBits =
        ((ofNat (10 ^ k.val)).double .positive).toBits := by
  decide +kernel

theorem unpack_powerOfTen {k : Nat} (hk : k < Float.exactlyRepresentablePowersOfTen.size) :
    Float.exactlyRepresentablePowersOfTen[k].toModel.unpack =
      (ofNat (10 ^ k)).unpacked .positive := by
  obtain ⟨exact, hgreatest, hbits⟩ := toBits_powerOfTen ⟨k, hk⟩
  have heq : Float.exactlyRepresentablePowersOfTen[k] = (ofNat (10 ^ k)).double .positive :=
    float_ext hbits
  rw [heq]
  exact exact.fits.unpack_double hgreatest .positive

theorem mul_eq_pack (x y : Float) :
    x * y = .ofModel (.pack (UnpackedFloat.mul Format.binary64 x.toModel.unpack y.toModel.unpack)) :=
  rfl

theorem div_eq_pack (x y : Float) :
    x / y = .ofModel (.pack (UnpackedFloat.div Format.binary64 x.toModel.unpack y.toModel.unpack)) :=
  rfl

variable {v : Magnitude} {m : Nat} {e : Int}

/-- The product of two exact doubles has bits enough to be rounded. -/
theorem le_roundingExponent_mul {a b : Nat} (ha : IsExact a) (hb : IsExact b) :
    (ofNat a).exponent + (ofNat b).exponent ≤ roundingExponent
      ((ofNat a).mantissa * (ofNat b).mantissa) ((ofNat a).exponent + (ofNat b).exponent) := by
  have hbits : 52 ≤ ((ofNat a).mantissa * (ofNat b).mantissa).log2 := by
    have hle : 2 ^ 52 * 1 ≤ (ofNat a).mantissa * (ofNat b).mantissa :=
      Nat.mul_le_mul ha.bounds.1 hb.fits.pos
    exact (Nat.le_log2 (by omega)).mpr hle
  rw [roundingExponent_eq]
  omega

theorem Near.mul_powerOfTen {k : Nat} (fits : v.Fits) (near : v.Near (m * 10 ^ k))
    (hlt : m < 2 ^ 53) (hk : k < Float.exactlyRepresentablePowersOfTen.size) :
    m.toUInt64.toFloat * Float.exactlyRepresentablePowersOfTen[k] = v.double .positive := by
  have hm := near.ne_zero fits
  have exact := isExact_of_lt hm hlt
  have power : IsExact (10 ^ k) := (toBits_powerOfTen ⟨k, hk⟩).1
  have hvalue : (m * 10 ^ k : ℚ) = (m : ℚ) * ((10 ^ k : Nat) : ℚ) := by push_cast; rfl
  rw [hvalue, ← exact.value, ← power.value] at near
  rw [mul_eq_pack, unpack_toFloat hm hlt, unpack_powerOfTen hk, unpacked_eq exact.fits.pos,
    unpacked_eq power.fits.pos, near.mul_eq _ _ fits (le_roundingExponent_mul exact power)]
  rfl

theorem Near.div_powerOfTen {k : Nat} (fits : v.Fits) (near : v.Near (m / 10 ^ k))
    (hlt : m < 2 ^ 53) (hk : k < Float.exactlyRepresentablePowersOfTen.size) :
    m.toUInt64.toFloat / Float.exactlyRepresentablePowersOfTen[k] = v.double .positive := by
  have hm := near.ne_zero fits
  have exact := isExact_of_lt hm hlt
  have power : IsExact (10 ^ k) := (toBits_powerOfTen ⟨k, hk⟩).1
  have hvalue : (m / 10 ^ k : ℚ) = (m : ℚ) / ((10 ^ k : Nat) : ℚ) := by push_cast; rfl
  rw [hvalue, ← exact.value, ← power.value] at near
  rw [div_eq_pack, unpack_toFloat hm hlt, unpack_powerOfTen hk, unpacked_eq exact.fits.pos,
    unpacked_eq power.fits.pos, near.div_eq _ _ fits]
  rfl

/-- A decimal is read as the size in whose interval it lies. -/
theorem Near.float_ofScientific_eq (fits : v.Fits) (hgreatest : v.exponent ≤ 971)
    (near : v.Near (m * 10 ^ e)) :
    Float.ofScientific m (e < 0) e.natAbs = v.double .positive := by
  have hmodel := near.ofScientific_eq fits hgreatest
  rw [Float.ofScientific]
  by_cases hfast : m < 2 ^ 53 ∧ e.natAbs ≤ 22
  · have hsize : e.natAbs < Float.exactlyRepresentablePowersOfTen.size := by
      show e.natAbs < 23
      omega
    rw [dif_pos hfast]
    by_cases hsign : e < 0
    · have hpower : (m * 10 ^ e : ℚ) = m / 10 ^ e.natAbs := by
        rw [show e = -(e.natAbs : Int) by omega, zpow_neg, zpow_natCast, Int.natAbs_neg,
          Int.natAbs_natCast, div_eq_mul_inv]
      rw [hpower] at near
      simp only [hsign, decide_true, if_true]
      exact near.div_powerOfTen fits hfast.1 hsize
    · have hpower : (m * 10 ^ e : ℚ) = m * 10 ^ e.natAbs := by
        rw [show e = (e.natAbs : Int) by omega, zpow_natCast, Int.natAbs_natCast]
      rw [hpower] at near
      simp only [hsign, decide_false, Bool.false_eq_true, if_false]
      exact near.mul_powerOfTen fits hfast.1 hsize
  · have hsigned : (if decide (e < 0) = true then Int.negOfNat e.natAbs else Int.ofNat e.natAbs) = e := by
      by_cases hsign : e < 0
      · simp only [hsign, decide_true, if_true, Int.negOfNat_eq]
        show -(e.natAbs : Int) = e
        omega
      · simp only [hsign, decide_false, Bool.false_eq_true, if_false]
        show (e.natAbs : Int) = e
        omega
    rw [dif_neg hfast]
    show Float.ofModel (.pack (UnpackedFloat.ofScientific Format.binary64 m
      (if decide (e < 0) = true then Int.negOfNat e.natAbs else Int.ofNat e.natAbs))) = _
    rw [hsigned, hmodel]
    rfl

/-! ## Integers -/

/-- Below the greatest double, what is rounded is finite. -/
theorem isFinite_roundedSize {accuracy : Accuracy} (h : e ≤ roundingExponent m e)
    (hgreatest : roundingExponent m e ≤ 970) (sign : Sign) :
    ((roundedSize m e accuracy).double sign).isFinite = true := by
  have hexponent : (roundedSize m e accuracy).exponent ≤ 971 := by
    by_cases hbeyond : rounded m e accuracy = 2 ^ 53
    · rw [roundedSize, if_pos hbeyond]
      show roundingExponent m e + 1 ≤ 971
      omega
    · rw [roundedSize, if_neg hbeyond]
      show roundingExponent m e ≤ 971
      omega
  exact isFinite_double (roundedSize_fits accuracy h) hexponent sign

theorem isFinite_ofNat {n : Nat} (hlt : n < 2 ^ 64) : (Float.ofNat n).isFinite = true := by
  show (Float.ofScientific n false 0).isFinite = true
  rcases Nat.eq_zero_or_pos n with rfl | hpos
  · decide +kernel
  rw [Float.ofScientific]
  by_cases hfast : n < 2 ^ 53 ∧ 0 ≤ 22
  · have exact := isExact_of_lt hpos.ne' hfast.1
    have hlog : n.log2 < 53 := (Nat.log2_lt hpos.ne').mpr hfast.1
    have hgreatest : (ofNat n).exponent ≤ 971 := by
      simp only [ofNat]
      omega
    have near := exact.near
    rw [← mul_one (n : ℚ), ← pow_zero (10 : ℚ)] at near
    rw [dif_pos hfast]
    simp only [Bool.false_eq_true, if_false]
    rw [near.mul_powerOfTen exact.fits hfast.1 (by decide)]
    exact isFinite_double (fun _ => exact.fits) hgreatest _
  · have hlog : n.log2 < 64 := (Nat.log2_lt hpos.ne').mpr hlt
    have hbits : Format.binary64.mantissaBits = 53 := rfl
    have hshift : (n <<< 53 * 10 ^ (0 : Int).toNat).log2 = n.log2 + 53 := by
      rw [Int.toNat_zero, Nat.pow_zero, Nat.mul_one, log2_shiftLeft hpos.ne']
    have hexponent := roundingExponent_eq (n <<< 53 * 10 ^ (0 : Int).toNat) (-(53 : Nat) + 0)
    rw [dif_neg hfast]
    show (Float.ofModel (.pack (UnpackedFloat.ofScientific Format.binary64 n 0))).isFinite = true
    have hsmall : ¬ (0 : Int) < -((2 ^ 11 : Int) + n.log2) := by omega
    rw [UnpackedFloat.ofScientific, dif_neg hpos.ne', if_neg (by decide), if_neg hsmall,
      if_pos (Int.le_refl 0), mul_eq_round, roundWithAccuracy_eq _ _ (by rw [hbits]; omega)]
    exact isFinite_roundedSize (by rw [hbits]; omega) (by rw [hbits]; omega) .positive

end Magnitude

/-- An integer that JSON text can hold is a finite double. -/
theorem JsonInt.isFinite (n : JsonInt) : (Float.ofInt n.val).isFinite = true := by
  obtain ⟨n, lower, upper⟩ := n
  rcases n with n | n
  · exact Magnitude.isFinite_ofNat (by simp at upper; omega)
  · exact Magnitude.isFinite_neg (Magnitude.isFinite_ofNat (by omega))

end Autoscaling
