import Autoscaling.Decimal.Shortest
import Mathlib

/-!
# Rounding to doubles

The model of doubles rounds a mantissa under an exponent, together with what is known of the digits
behind it, to a mantissa that a double holds.
-/

namespace Autoscaling

open Float.Model Float.Model.UnpackedFloat

/-- The exponent under which a mantissa is rounded. -/
def roundingExponent (mantissa : Nat) (exponent : Int) : Int :=
  Format.binary64.targetExponent (totalExponent mantissa exponent)

theorem roundingExponent_eq (mantissa : Nat) (exponent : Int) :
    roundingExponent mantissa exponent = max (mantissa.log2 + exponent - 52) (-1074) := by
  simp only [roundingExponent, Format.targetExponent, totalExponent, Format.mantissaBits,
    Format.minExponent]
  omega

namespace Magnitude

/-- A size that a double has, if its exponent is not too great. -/
structure Fits (v : Magnitude) : Prop where
  pos : 0 < v.mantissa
  lt : v.mantissa < 2 ^ 53
  least : leastExponent ≤ v.exponent
  /-- the leading bit is there unless the exponent is the least one -/
  full : leadingBit ≤ v.mantissa ∨ v.exponent = leastExponent

end Magnitude

theorem mantissa_shiftRight (em : ExtendedMantissa) (n : Nat) :
    (em >>> n).mantissa = em.mantissa / 2 ^ n := by
  show (n.repeat ExtendedMantissa.shiftRightOne em).mantissa = _
  induction n with
  | zero => simp [Nat.repeat]
  | succ n ih =>
      rw [Nat.repeat, ExtendedMantissa.shiftRightOne, ih, Nat.div_div_eq_div_mul, Nat.pow_succ]

/-- A mantissa is rounded to itself or to the next one. -/
theorem roundedMantissa_bounds (em : ExtendedMantissa) :
    em.mantissa ≤ em.roundedMantissa ∧ em.roundedMantissa ≤ em.mantissa + 1 := by
  have hmod := Nat.mod_two_eq_zero_or_one em.mantissa
  rcases em with ⟨m, _ | _, _ | _⟩ <;>
    simp only [ExtendedMantissa.roundedMantissa, ExtendedMantissa.accuracy,
      Accuracy.roundToNearestEven] at * <;> omega

/-- What a mantissa is rounded to under its rounding exponent. -/
def rounded (mantissa : Nat) (exponent : Int) (accuracy : Accuracy) : Nat :=
  (shiftToTargetExponent Format.binary64 mantissa exponent accuracy).1.roundedMantissa

variable {m : Nat} {e : Int} (accuracy : Accuracy)

theorem mantissa_ofMantissaAndAccuracy (m : Nat) :
    (ExtendedMantissa.ofMantissaAndAccuracy m accuracy).mantissa = m := by
  rcases accuracy with _ | _ | _ | _ <;> rfl

theorem shiftToTargetExponent_def (m : Nat) (e : Int) :
    shiftToTargetExponent Format.binary64 m e accuracy =
      (ExtendedMantissa.ofMantissaAndAccuracy m accuracy >>> (roundingExponent m e - e).toNat,
        e + (roundingExponent m e - e).toNat) := rfl

theorem shiftToTargetExponent_eq (h : e ≤ roundingExponent m e) :
    shiftToTargetExponent Format.binary64 m e accuracy =
      (ExtendedMantissa.ofMantissaAndAccuracy m accuracy >>> (roundingExponent m e - e).toNat,
        roundingExponent m e) := by
  rw [shiftToTargetExponent_def, show e + ((roundingExponent m e - e).toNat : Int) =
    roundingExponent m e by omega]

theorem rounded_bounds (h : e ≤ roundingExponent m e) :
    m / 2 ^ (roundingExponent m e - e).toNat ≤ rounded m e accuracy ∧
      rounded m e accuracy ≤ m / 2 ^ (roundingExponent m e - e).toNat + 1 := by
  have hbounds := roundedMantissa_bounds
    (ExtendedMantissa.ofMantissaAndAccuracy m accuracy >>> (roundingExponent m e - e).toNat)
  rw [mantissa_shiftRight, mantissa_ofMantissaAndAccuracy] at hbounds
  rwa [rounded, shiftToTargetExponent_eq accuracy h]

/-- The rounded mantissa has at most the bits of a double, or it is the first one beyond. -/
theorem rounded_le (h : e ≤ roundingExponent m e) : rounded m e accuracy ≤ 2 ^ 53 := by
  have hbound := (rounded_bounds accuracy h).2
  have hshift : m.log2 + 1 ≤ 53 + (roundingExponent m e - e).toNat := by
    have heq := roundingExponent_eq m e
    omega
  have hlt : m / 2 ^ (roundingExponent m e - e).toNat < 2 ^ 53 := by
    rw [Nat.div_lt_iff_lt_mul (Nat.two_pow_pos _), ← Nat.pow_add]
    exact Nat.lt_of_lt_of_le Nat.lt_log2_self (Nat.pow_le_pow_right (by decide) hshift)
  omega

/-- The leading bit is kept unless the exponent is the least one. -/
theorem le_rounded (h : e ≤ roundingExponent m e) (hleast : roundingExponent m e ≠ -1074) :
    2 ^ 52 ≤ rounded m e accuracy := by
  refine Nat.le_trans ?_ (rounded_bounds accuracy h).1
  have heq := roundingExponent_eq m e
  have hpos : m ≠ 0 := by
    rintro rfl
    have hlog : (0 : Nat).log2 = 0 := rfl
    omega
  have hshift : 52 + (roundingExponent m e - e).toNat = m.log2 := by omega
  rw [Nat.le_div_iff_mul_le (Nat.two_pow_pos _), ← Nat.pow_add, hshift]
  exact Nat.log2_self_le hpos

/-- The size that a mantissa is rounded to: what is rounded up beyond the bits of a double loses its
last bit, which is zero. -/
def roundedSize (mantissa : Nat) (exponent : Int) (accuracy : Accuracy) : Magnitude :=
  let r := rounded mantissa exponent accuracy
  let t := roundingExponent mantissa exponent
  if r = 2 ^ 53 then ⟨2 ^ 52, t + 1⟩ else ⟨r, t⟩

/-- A size with a sign, as the model of doubles has it. -/
def Magnitude.unpacked (sign : Sign) (v : Magnitude) : UnpackedFloat :=
  if h : v.mantissa = 0 then .zero sign
  else .finite sign v.mantissa v.exponent (Nat.pos_of_ne_zero h)

theorem Magnitude.unpacked_eq {v : Magnitude} (hpos : 0 < v.mantissa) (sign : Sign) :
    v.unpacked sign = .finite sign v.mantissa v.exponent hpos :=
  dif_neg hpos.ne'

/-- A mantissa that was rounded is shifted by nothing, or by the one bit that was gained. -/
theorem shiftToTargetExponent_rounded (h : e ≤ roundingExponent m e) :
    shiftToTargetExponent Format.binary64 (rounded m e accuracy) (roundingExponent m e) .exact =
      (⟨(roundedSize m e accuracy).mantissa, false, false⟩,
        (roundedSize m e accuracy).exponent) := by
  have hle := rounded_le accuracy h
  have hexponent := roundingExponent_eq (rounded m e accuracy) (roundingExponent m e)
  have hleast : -1074 ≤ roundingExponent m e := by
    rw [roundingExponent_eq]
    omega
  by_cases hbeyond : rounded m e accuracy = 2 ^ 53
  · have hlog : (2 ^ 53 : Nat).log2 = 53 := Nat.log2_two_pow
    rw [hbeyond, hlog] at hexponent
    have htarget : roundingExponent (2 ^ 53) (roundingExponent m e) =
        roundingExponent m e + 1 := by omega
    have hone : (roundingExponent m e + 1 - roundingExponent m e).toNat = 1 := by omega
    rw [roundedSize, if_pos hbeyond, hbeyond, shiftToTargetExponent_eq _ (by omega), htarget,
      hone]
    rfl
  · have hlog : (rounded m e accuracy).log2 < 53 := by
      rcases Nat.eq_zero_or_pos (rounded m e accuracy) with hzero | hpos
      · rw [hzero]
        decide
      · exact (Nat.log2_lt hpos.ne').mpr (by omega)
    have htarget : roundingExponent (rounded m e accuracy) (roundingExponent m e) ≤
        roundingExponent m e := by omega
    have hnone : (roundingExponent (rounded m e accuracy) (roundingExponent m e) -
        roundingExponent m e).toNat = 0 := by omega
    rw [roundedSize, if_neg hbeyond, shiftToTargetExponent_def, hnone]
    exact Prod.ext rfl (Int.add_zero _)

theorem roundWithAccuracy_eq (sign : Sign) (h : e ≤ roundingExponent m e) :
    roundWithAccuracy Format.binary64 sign m e accuracy =
      (roundedSize m e accuracy).unpacked sign := by
  have hagain := shiftToTargetExponent_rounded accuracy h
  have hexponent : (shiftToTargetExponent Format.binary64 m e accuracy).2 = roundingExponent m e := by
    rw [shiftToTargetExponent_eq accuracy h]
  rw [← hexponent] at hagain
  have hfinish (p : ExtendedMantissa × Int) (v : Magnitude)
      (hp : p = (⟨v.mantissa, false, false⟩, v.exponent)) :
      (if h : p.1.mantissa = 0 then UnpackedFloat.zero sign
        else .finite sign p.1.mantissa p.2 (Nat.pos_of_ne_zero h)) = v.unpacked sign := by
    subst hp
    rfl
  exact hfinish _ _ hagain

theorem roundedSize_fits (h : e ≤ roundingExponent m e)
    (hpos : (roundedSize m e accuracy).mantissa ≠ 0) : (roundedSize m e accuracy).Fits := by
  have hleast : -1074 ≤ roundingExponent m e := by
    rw [roundingExponent_eq]
    omega
  by_cases hbeyond : rounded m e accuracy = 2 ^ 53
  · rw [roundedSize, if_pos hbeyond]
    refine ⟨Nat.two_pow_pos 52, Nat.pow_lt_pow_right (by decide) (by decide), ?_,
      .inl (Nat.le_refl _)⟩
    show (-1074 : Int) ≤ roundingExponent m e + 1
    omega
  · rw [roundedSize, if_neg hbeyond] at hpos ⊢
    refine ⟨Nat.pos_of_ne_zero hpos, ?_, hleast, ?_⟩
    · exact Nat.lt_of_le_of_ne (rounded_le accuracy h) hbeyond
    · exact (em (roundingExponent m e = -1074)).symm.imp (le_rounded accuracy h) id

end Autoscaling
