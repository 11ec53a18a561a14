import Autoscaling.Decimal.Nearest
import Autoscaling.Proofs.Decimal.Rounding

/-!
# The double nearest to a number

Around every size that a double has lies the interval of the numbers that are rounded to it
(`Magnitude.Near`).
-/

namespace Autoscaling

open Float.Model Float.Model.UnpackedFloat

/-! ## What a rounded mantissa stands for -/

/-- The numbers that a mantissa with its two bits behind it stands for. -/
def Represents (em : ExtendedMantissa) (y : ℚ) : Prop :=
  match em.roundBit, em.stickyBit with
  | false, false => y = em.mantissa
  | false, true => em.mantissa < y ∧ y < em.mantissa + 1 / 2
  | true, false => y = em.mantissa + 1 / 2
  | true, true => em.mantissa + 1 / 2 < y ∧ y < em.mantissa + 1

namespace Represents

variable {em : ExtendedMantissa} {y : ℚ}

theorem bounds (h : Represents em y) : (em.mantissa : ℚ) ≤ y ∧ y < em.mantissa + 1 := by
  rcases em with ⟨m, _ | _, _ | _⟩ <;> simp only [Represents] at h ⊢ <;>
    constructor <;> linarith

theorem shiftRightOne (h : Represents em y) : Represents em.shiftRightOne (y / 2) := by
  rcases em with ⟨m, round, sticky⟩
  obtain ⟨half, hm⟩ : ∃ half, m = 2 * half + m % 2 := ⟨m / 2, by omega⟩
  have hhalf : m / 2 = half := by omega
  rcases Nat.mod_two_eq_zero_or_one m with hbit | hbit <;> cases round <;> cases sticky <;>
    simp only [Represents, ExtendedMantissa.shiftRightOne, hbit, hhalf] at h ⊢ <;>
    rw [hm, hbit] at h <;> push_cast at h <;>
    simp <;> first | linarith | constructor <;> linarith

theorem shiftRight (h : Represents em y) (n : Nat) : Represents (em >>> n) (y / 2 ^ n) := by
  show Represents (n.repeat ExtendedMantissa.shiftRightOne em) _
  induction n with
  | zero => simpa [Nat.repeat] using h
  | succ n ih =>
      rw [Nat.repeat, pow_succ, ← div_div]
      exact ih.shiftRightOne

/-- A number is rounded to the nearest mantissa, and to the even one of two. -/
theorem roundedMantissa_eq (h : Represents em y) {n : Nat} (low : (n : ℚ) - 1 / 2 ≤ y)
    (high : y ≤ n + 1 / 2) (odd : n % 2 = 1 → (n : ℚ) - 1 / 2 < y ∧ y < n + 1 / 2) :
    em.roundedMantissa = n := by
  have cast_lt {a b : Nat} (h : (a : ℚ) < b + 1) : a ≤ b := by
    have h : a < b + 1 := by exact_mod_cast h
    omega
  rcases em with ⟨m, _ | _, _ | _⟩ <;> simp only [Represents] at h
  · -- the number is the mantissa
    have hle : n ≤ m := cast_lt (by linarith)
    have hge : m ≤ n := cast_lt (by linarith)
    show m = n
    omega
  · have hle : n ≤ m := cast_lt (by linarith)
    have hge : m ≤ n := cast_lt (by linarith)
    show m = n
    omega
  · -- the number is in the middle between two mantissas, and the even one counts
    have hle : n ≤ m + 1 := cast_lt (by push_cast; linarith)
    have hge : m ≤ n := cast_lt (by linarith)
    have heven : n % 2 = 0 := by
      by_contra hodd
      obtain ⟨hlow, hhigh⟩ := odd (by omega)
      rw [h] at hlow hhigh
      have hlt : n < m + 1 := by exact_mod_cast (by linarith : (n : ℚ) < m + 1)
      have hgt : m < n := by exact_mod_cast (by linarith : (m : ℚ) < n)
      omega
    show m + m % 2 = n
    omega
  · have hle : n ≤ m + 1 := cast_lt (by push_cast; linarith)
    have hgt : m < n := by exact_mod_cast (by linarith : (m : ℚ) < n)
    show m + 1 = n
    omega

/-- What is known of a mantissa and what is behind it. -/
theorem of_exact (m : Nat) : Represents (.ofMantissaAndAccuracy m .exact) m := rfl

/-- The whole part of a quotient with the accuracy of its fraction stands for the quotient. -/
theorem of_div (a : Nat) {b : Nat} (hb : 0 < b) :
    Represents (.ofMantissaAndAccuracy (a / b) (accuracyOfFraction (a % b) b)) ((a : ℚ) / b) := by
  have hb' : (0 : ℚ) < b := by exact_mod_cast hb
  have hdiv : (a : ℚ) / b = (a / b : Nat) + ((a % b : Nat) : ℚ) / b := by
    rw [eq_comm, eq_div_iff hb'.ne', add_mul, div_mul_cancel₀ _ hb'.ne']
    exact_mod_cast Nat.div_add_mod' a b
  have hlt : ((a % b : Nat) : ℚ) / b < 1 := by
    rw [div_lt_one hb']
    exact_mod_cast Nat.mod_lt a hb
  rw [hdiv, accuracyOfFraction]
  split_ifs with hexact
  · simp [Represents, ExtendedMantissa.ofMantissaAndAccuracy, hexact]
  · have hpos : (0 : ℚ) < ((a % b : Nat) : ℚ) / b :=
      div_pos (by exact_mod_cast Nat.pos_of_ne_zero hexact) hb'
    rcases hcompare : compare (2 * (a % b)) b with _ | _ | _
    · have hhalf : ((a % b : Nat) : ℚ) / b < 1 / 2 := by
        have h := Nat.compare_eq_lt.mp hcompare
        rw [div_lt_iff₀ hb']
        have h : (2 * (a % b : Nat) : ℚ) < b := by exact_mod_cast h
        linarith
      show ((a / b : Nat) : ℚ) < _ ∧ _ < ((a / b : Nat) : ℚ) + 1 / 2
      exact ⟨by linarith, by linarith⟩
    · have hhalf : ((a % b : Nat) : ℚ) / b = 1 / 2 := by
        have h := Nat.compare_eq_eq.mp hcompare
        rw [div_eq_iff hb'.ne']
        have h : (2 * (a % b : Nat) : ℚ) = b := by exact_mod_cast h
        linarith
      show _ = ((a / b : Nat) : ℚ) + 1 / 2
      rw [hhalf]
    · have hhalf : 1 / 2 < ((a % b : Nat) : ℚ) / b := by
        have h := Nat.compare_eq_gt.mp hcompare
        rw [lt_div_iff₀ hb']
        have h : (b : ℚ) < 2 * (a % b : Nat) := by exact_mod_cast h
        linarith
      show ((a / b : Nat) : ℚ) + 1 / 2 < _ ∧ _ < ((a / b : Nat) : ℚ) + 1
      exact ⟨by linarith, by linarith⟩

end Represents

/-! ## The interval of a size -/

/-- A number lies in the interval of a size: half the gap to the next size on either side, with the
ends if the mantissa is even. -/
structure Magnitude.Near (v : Magnitude) (x : ℚ) : Prop where
  low : (v.mantissa - v.quartersBelow / 4 : ℚ) * 2 ^ v.exponent ≤ x
  high : x ≤ (v.mantissa + 1 / 2 : ℚ) * 2 ^ v.exponent
  odd : v.mantissa % 2 = 1 → (v.mantissa - v.quartersBelow / 4 : ℚ) * 2 ^ v.exponent < x ∧
    x < (v.mantissa + 1 / 2 : ℚ) * 2 ^ v.exponent

theorem two_zpow_pos (k : ℤ) : (0 : ℚ) < 2 ^ k := zpow_pos (by norm_num) k

theorem two_zpow_le {j k : ℤ} (h : j ≤ k) : (2 : ℚ) ^ j ≤ 2 ^ k := zpow_le_zpow_right₀ (by norm_num) h

theorem two_zpow_add (j k : ℤ) : (2 : ℚ) ^ (j + k) = 2 ^ j * 2 ^ k := zpow_add₀ (by norm_num) j k

theorem two_zpow_log2_le {m : Nat} (hm : m ≠ 0) (e : ℤ) :
    (2 : ℚ) ^ ((m.log2 : ℤ) + e) ≤ m * 2 ^ e := by
  rw [two_zpow_add, zpow_natCast]
  have hle : ((2 ^ m.log2 : Nat) : ℚ) ≤ m := by exact_mod_cast Nat.log2_self_le hm
  push_cast at hle
  exact mul_le_mul_of_nonneg_right hle (two_zpow_pos e).le

theorem succ_mul_le_two_zpow (m : Nat) (e : ℤ) :
    ((m : ℚ) + 1) * 2 ^ e ≤ 2 ^ ((m.log2 : ℤ) + 1 + e) := by
  rw [two_zpow_add]
  have hle : ((m + 1 : Nat) : ℚ) ≤ (2 ^ (m.log2 + 1) : Nat) := by exact_mod_cast Nat.lt_log2_self
  push_cast at hle
  refine mul_le_mul_of_nonneg_right ?_ (two_zpow_pos e).le
  exact_mod_cast hle

namespace Magnitude

variable {v : Magnitude} {x : ℚ}

theorem quartersBelow_cases (v : Magnitude) :
    (v.quartersBelow = 1 ∧ v.mantissa = leadingBit ∧ leastExponent < v.exponent) ∨
      v.quartersBelow = 2 ∧ ¬ (v.mantissa = leadingBit ∧ leastExponent < v.exponent) := by
  unfold quartersBelow
  split_ifs with h
  · exact .inl ⟨rfl, h⟩
  · exact .inr ⟨rfl, h⟩

/-- The interval does not reach the size with the next greater exponent. -/
theorem Near.lt (fits : v.Fits) (near : v.Near x) : x < 2 ^ (v.exponent + 53) := by
  have hmantissa : (v.mantissa : ℚ) + 1 ≤ 2 ^ (53 : ℤ) := by exact_mod_cast fits.lt
  have hscaled := mul_le_mul_of_nonneg_right hmantissa (two_zpow_pos v.exponent).le
  rw [add_comm, two_zpow_add]
  have hhigh := near.high
  have hpos := two_zpow_pos v.exponent
  nlinarith

/-- Above the least exponent, only the interval of a power of two reaches below it, and by less than
half. -/
theorem Near.ge (fits : v.Fits) (near : v.Near x) (hleast : leastExponent < v.exponent) :
    2 ^ (v.exponent + 52) ≤ x ∨ v.mantissa = leadingBit ∧
      (2 ^ 52 - 1 / 4 : ℚ) * 2 ^ v.exponent ≤ x := by
  have hlow := near.low
  have hpos := two_zpow_pos v.exponent
  have hfull : leadingBit ≤ v.mantissa := fits.full.resolve_right hleast.ne'
  rcases v.quartersBelow_cases with ⟨hbelow, hmantissa, -⟩ | ⟨hbelow, hnot⟩
  · refine .inr ⟨hmantissa, ?_⟩
    have hbit : ((leadingBit : Nat) : ℚ) = 2 ^ 52 := by norm_num [leadingBit]
    rw [hbelow, hmantissa, hbit] at hlow
    exact_mod_cast hlow
  · have hlt : leadingBit + 1 ≤ v.mantissa :=
      Nat.lt_of_le_of_ne hfull fun h => hnot ⟨h.symm, hleast⟩
    have hmantissa : (2 : ℚ) ^ (52 : ℤ) + 1 ≤ v.mantissa := by exact_mod_cast hlt
    refine .inl ?_
    rw [hbelow] at hlow
    rw [add_comm, two_zpow_add]
    push_cast at hlow
    nlinarith

/-- The exponent under which a number is rounded is that of the size in whose interval it lies, or
the next smaller one, if the size is a power of two and the number lies below it. -/
theorem Near.roundingExponent_cases (fits : v.Fits) (near : v.Near x) {m : Nat} {e : Int}
    (h : e ≤ roundingExponent m e) (hlow : m * 2 ^ e ≤ x) (hhigh : x < (m + 1) * 2 ^ e) :
    roundingExponent m e = v.exponent ∨
      roundingExponent m e = v.exponent - 1 ∧ v.mantissa = leadingBit ∧
        (2 ^ 52 - 1 / 4 : ℚ) * 2 ^ v.exponent ≤ x ∧ x < 2 ^ (v.exponent + 52) := by
  have htarget := roundingExponent_eq m e
  have hleast : -1074 ≤ v.exponent := fits.least
  have hle : roundingExponent m e ≤ v.exponent := by
    by_contra hgt
    have hm : m ≠ 0 := by
      rintro rfl
      have hlog : (0 : Nat).log2 = 0 := rfl
      omega
    have hbelow := (two_zpow_log2_le hm e).trans hlow
    have hstep : (2 : ℚ) ^ (v.exponent + 53) ≤ 2 ^ ((m.log2 : ℤ) + e) := two_zpow_le (by omega)
    exact absurd (near.lt fits) (not_lt.mpr (hstep.trans hbelow))
  have hlt : x < 2 ^ (roundingExponent m e + 53) :=
    (hhigh.trans_le (succ_mul_le_two_zpow m e)).trans_le (two_zpow_le (by omega))
  have hexponent {k : ℤ} (hk : (2 : ℚ) ^ k ≤ x) : k < roundingExponent m e + 53 :=
    (zpow_lt_zpow_iff_right₀ (by norm_num)).mp (hk.trans_lt hlt)
  rcases eq_or_lt_of_le hleast with heq | hleast
  · exact .inl (by omega)
  rcases near.ge fits hleast with hge | ⟨hmantissa, hge⟩
  · have := hexponent hge
    exact .inl (by omega)
  · have hfar : (2 : ℚ) ^ (v.exponent + 51) ≤ x := by
      rw [add_comm, two_zpow_add]
      refine (mul_le_mul_of_nonneg_right ?_ (two_zpow_pos _).le).trans hge
      norm_num
    have := hexponent hfar
    by_cases heq : roundingExponent m e = v.exponent
    · exact .inl heq
    · have hprevious : roundingExponent m e = v.exponent - 1 := by omega
      refine .inr ⟨hprevious, hmantissa, hge, ?_⟩
      rw [hprevious] at hlt
      exact hlt.trans_le (two_zpow_le (by omega))

/-- A number is rounded to the size in whose interval it lies. -/
theorem Near.roundedSize_eq (fits : v.Fits) (near : v.Near x) {m : Nat} {e : Int}
    {accuracy : Accuracy} (h : e ≤ roundingExponent m e)
    (stands : Represents (.ofMantissaAndAccuracy m accuracy) (x / 2 ^ e)) :
    roundedSize m e accuracy = v := by
  obtain ⟨hlow, hhigh⟩ := stands.bounds
  rw [mantissa_ofMantissaAndAccuracy, le_div_iff₀ (two_zpow_pos e)] at hlow
  rw [mantissa_ofMantissaAndAccuracy, div_lt_iff₀ (two_zpow_pos e)] at hhigh
  have shifted := stands.shiftRight (roundingExponent m e - e).toNat
  have hshift : x / 2 ^ e / 2 ^ (roundingExponent m e - e).toNat = x / 2 ^ roundingExponent m e := by
    rw [div_div, ← zpow_natCast, ← two_zpow_add]
    congr 2
    omega
  rw [hshift] at shifted
  have hrounded {n : Nat} (low : (n : ℚ) - 1 / 2 ≤ x / 2 ^ roundingExponent m e)
      (high : x / 2 ^ roundingExponent m e ≤ n + 1 / 2)
      (odd : n % 2 = 1 → (n : ℚ) - 1 / 2 < x / 2 ^ roundingExponent m e ∧
        x / 2 ^ roundingExponent m e < n + 1 / 2) : rounded m e accuracy = n := by
    rw [rounded, shiftToTargetExponent_eq accuracy h]
    exact shifted.roundedMantissa_eq low high odd
  rcases near.roundingExponent_cases fits h hlow hhigh with
    heq | ⟨heq, hmantissa, hge, hlt⟩
  · have hpos := two_zpow_pos v.exponent
    have hquarters : (v.quartersBelow : ℚ) / 4 ≤ 1 / 2 := by
      rcases v.quartersBelow_cases with ⟨hbelow, -⟩ | ⟨hbelow, -⟩ <;> rw [hbelow] <;> norm_num
    have hsame : rounded m e accuracy = v.mantissa := by
      rw [heq] at hrounded
      refine hrounded ?_ ?_ fun hodd => ?_
      · rw [le_div_iff₀ hpos]
        exact le_trans (mul_le_mul_of_nonneg_right (by linarith) hpos.le) near.low
      · rw [div_le_iff₀ hpos]
        exact near.high
      · obtain ⟨low, high⟩ := near.odd hodd
        rw [lt_div_iff₀ hpos, div_lt_iff₀ hpos]
        exact ⟨lt_of_le_of_lt (mul_le_mul_of_nonneg_right (by linarith) hpos.le) low, high⟩
    have hfew : v.mantissa ≠ 2 ^ 53 := fits.lt.ne
    rw [roundedSize, hsame, if_neg hfew, heq]
  · have hpos := two_zpow_pos (v.exponent - 1)
    have hdouble : (2 : ℚ) ^ v.exponent = 2 * 2 ^ (v.exponent - 1) := by
      rw [← zpow_one_add₀ (by norm_num)]
      congr 1
      omega
    have hbeyond : rounded m e accuracy = 2 ^ 53 := by
      rw [heq] at hrounded
      refine hrounded ?_ ?_ fun hodd => absurd hodd (by decide)
      · rw [le_div_iff₀ hpos]
        rw [hdouble] at hge
        push_cast
        linarith
      · rw [div_le_iff₀ hpos]
        have hscaled : (2 : ℚ) ^ (v.exponent + 52) = 2 ^ 53 * 2 ^ (v.exponent - 1) := by
          rw [← zpow_natCast, ← two_zpow_add]
          congr 1
          push_cast
          omega
        rw [hscaled] at hlt
        push_cast
        linarith
    rw [roundedSize, if_pos hbeyond, heq]
    obtain ⟨mantissa, exponent⟩ := v
    have hbit : leadingBit = 2 ^ 52 := rfl
    have hone : exponent - 1 + 1 = exponent := Int.sub_add_cancel ..
    rw [show mantissa = 2 ^ 52 from hmantissa.trans hbit]
    exact congrArg _ hone

/-! ## Products and quotients -/

variable {m₁ m₂ : Nat} {e₁ e₂ : Int} {h₁ : 0 < m₁} {h₂ : 0 < m₂} (s₁ s₂ : Sign)

theorem mul_eq_round :
    UnpackedFloat.mul Format.binary64 (.finite s₁ m₁ e₁ h₁) (.finite s₂ m₂ e₂ h₂) =
      roundWithAccuracy Format.binary64 (s₁ * s₂) (m₁ * m₂) (e₁ + e₂) .exact :=
  rfl

theorem Near.mul_eq (fits : v.Fits) (near : v.Near ((m₁ * 2 ^ e₁) * (m₂ * 2 ^ e₂)))
    (h : e₁ + e₂ ≤ roundingExponent (m₁ * m₂) (e₁ + e₂)) :
    UnpackedFloat.mul Format.binary64 (.finite s₁ m₁ e₁ h₁) (.finite s₂ m₂ e₂ h₂) =
      v.unpacked (s₁ * s₂) := by
  have hproduct : (m₁ * 2 ^ e₁ : ℚ) * (m₂ * 2 ^ e₂) / 2 ^ (e₁ + e₂) = (m₁ * m₂ : Nat) := by
    have h₁ := (two_zpow_pos e₁).ne'
    have h₂ := (two_zpow_pos e₂).ne'
    rw [two_zpow_add]
    push_cast
    field_simp
  have stands : Represents (.ofMantissaAndAccuracy (m₁ * m₂) .exact)
      ((m₁ * 2 ^ e₁ : ℚ) * (m₂ * 2 ^ e₂) / 2 ^ (e₁ + e₂)) := hproduct ▸ .of_exact (m₁ * m₂)
  rw [mul_eq_round, roundWithAccuracy_eq _ _ h, near.roundedSize_eq fits h stands]

/-- A quotient is computed with enough bits. -/
theorem le_roundingExponent_div (hm₁ : 0 < m₁) (hm₂ : 0 < m₂) {t : Int} (hle : t ≤ e₁ - e₂)
    (htarget : t ≤ max ((m₁.log2 + e₁) - (m₂.log2 + e₂) - 53) (-1074)) :
    t ≤ roundingExponent (m₁ <<< (e₁ - e₂ - t).toNat / m₂) t := by
  rw [roundingExponent_eq]
  by_cases hleast : t ≤ -1074
  · omega
  have hbits : m₂.log2 + 1 + 52 ≤ m₁.log2 + (e₁ - e₂ - t).toNat := by omega
  have hquotient : 2 ^ 52 ≤ m₁ <<< (e₁ - e₂ - t).toNat / m₂ := by
    rw [Nat.le_div_iff_mul_le hm₂, Nat.shiftLeft_eq]
    calc 2 ^ 52 * m₂ ≤ 2 ^ 52 * 2 ^ (m₂.log2 + 1) :=
          Nat.mul_le_mul_left _ Nat.lt_log2_self.le
      _ = 2 ^ (m₂.log2 + 1 + 52) := by rw [← Nat.pow_add, Nat.add_comm]
      _ ≤ 2 ^ (m₁.log2 + (e₁ - e₂ - t).toNat) := Nat.pow_le_pow_right (by decide) hbits
      _ = 2 ^ m₁.log2 * 2 ^ (e₁ - e₂ - t).toNat := Nat.pow_add ..
      _ ≤ m₁ * 2 ^ (e₁ - e₂ - t).toNat := Nat.mul_le_mul_right _ (Nat.log2_self_le hm₁.ne')
  have hlog : 52 ≤ (m₁ <<< (e₁ - e₂ - t).toNat / m₂).log2 :=
    (Nat.le_log2 (by omega)).mpr hquotient
  omega

theorem Near.div_eq (fits : v.Fits) (near : v.Near ((m₁ * 2 ^ e₁) / (m₂ * 2 ^ e₂))) :
    UnpackedFloat.div Format.binary64 (.finite s₁ m₁ e₁ h₁) (.finite s₂ m₂ e₂ h₂) =
      v.unpacked (s₁ / s₂) := by
  let t := min (e₁ - e₂) (Format.binary64.targetExponent (totalExponent m₁ e₁ - totalExponent m₂ e₂))
  let a := m₁ <<< (e₁ - e₂ - t).toNat
  have htarget : t ≤ max ((m₁.log2 + e₁) - (m₂.log2 + e₂) - 53) (-1074) := by
    simp only [t, Format.targetExponent, totalExponent, Format.mantissaBits, Format.minExponent]
    omega
  have hle : t ≤ e₁ - e₂ := min_le_left ..
  have h : t ≤ roundingExponent (a / m₂) t := le_roundingExponent_div h₁ h₂ hle htarget
  have hquotient : (m₁ * 2 ^ e₁ : ℚ) / (m₂ * 2 ^ e₂) / 2 ^ t = (a : ℚ) / m₂ := by
    have hshift : (2 : ℚ) ^ e₁ = 2 ^ (e₁ - e₂ - t).toNat * 2 ^ e₂ * 2 ^ t := by
      rw [← zpow_natCast, ← two_zpow_add, ← two_zpow_add]
      congr 1
      omega
    have he := (two_zpow_pos e₂).ne'
    have ht := (two_zpow_pos t).ne'
    have hm : (m₂ : ℚ) ≠ 0 := by exact_mod_cast h₂.ne'
    rw [show (a : ℚ) = m₁ * 2 ^ (e₁ - e₂ - t).toNat by simp [a, Nat.shiftLeft_eq], hshift]
    field_simp
  have stands : Represents (.ofMantissaAndAccuracy (a / m₂) (accuracyOfFraction (a % m₂) m₂))
      ((m₁ * 2 ^ e₁ : ℚ) / (m₂ * 2 ^ e₂) / 2 ^ t) := hquotient ▸ .of_div a h₂
  show roundWithAccuracy Format.binary64 (s₁ / s₂) (a / m₂) t (accuracyOfFraction (a % m₂) m₂) = _
  rw [roundWithAccuracy_eq _ _ h, near.roundedSize_eq fits h stands]

/-! ## Powers of ten -/

/-- The number that is nearest to a size that a double has is not too small. -/
theorem Near.gt (fits : v.Fits) (near : v.Near x) : 2 ^ (-1075 : ℤ) ≤ x := by
  have hquarters : (v.quartersBelow : ℚ) / 4 ≤ 1 / 2 := by
    rcases v.quartersBelow_cases with ⟨hbelow, -⟩ | ⟨hbelow, -⟩ <;> rw [hbelow] <;> norm_num
  have hmantissa : (1 : ℚ) ≤ v.mantissa := by exact_mod_cast fits.pos
  have hleast : (2 : ℚ) ^ (-1074 : ℤ) ≤ 2 ^ v.exponent := two_zpow_le fits.least
  have hhalf : (2 : ℚ) ^ (-1075 : ℤ) = 1 / 2 * 2 ^ (-1074 : ℤ) := by
    rw [show (-1075 : ℤ) = -1 + -1074 by norm_num, two_zpow_add]
    norm_num
  refine le_trans ?_ near.low
  rw [hhalf]
  exact mul_le_mul (by linarith) hleast (two_zpow_pos _).le (by linarith)

theorem Near.ne_zero {m : Nat} {y : ℚ} (fits : v.Fits) (near : v.Near (m * y)) : m ≠ 0 := by
  rintro rfl
  have hgt := near.gt fits
  rw [Nat.cast_zero, zero_mul] at hgt
  exact absurd hgt (not_le.mpr (two_zpow_pos _))

/-- The model of doubles reads a decimal as the size in whose interval it lies. -/
theorem Near.ofScientific_eq (fits : v.Fits) (hgreatest : v.exponent ≤ 971) {m : Nat} {e : Int}
    (near : v.Near (m * 10 ^ e)) :
    UnpackedFloat.ofScientific Format.binary64 m e = v.unpacked .positive := by
  have hpos : m ≠ 0 := near.ne_zero fits
  have hone : (1 : ℚ) ≤ m := by exact_mod_cast Nat.pos_of_ne_zero hpos
  have hten : (0 : ℚ) < 10 ^ e := zpow_pos (by norm_num) e
  have hgreat : ¬ e > 2 ^ 11 := fun hgt => by
    have hle : (2 : ℚ) ^ (v.exponent + 53) ≤ 10 ^ e :=
      (two_zpow_le (by omega)).trans (zpow_le_zpow_left₀ (by omega) (by norm_num) (by norm_num))
    have hlt := near.lt fits
    nlinarith
  have hsmall : ¬ e < -((2 ^ 11 : Int) + m.log2) := fun hlt => by
    have hle : (10 : ℚ) ^ e ≤ 2 ^ e := by
      have hfive : (5 : ℚ) ^ e ≤ 1 := zpow_le_one_of_nonpos₀ (by norm_num) (by omega)
      rw [show (10 : ℚ) = 5 * 2 by norm_num, mul_zpow]
      exact mul_le_of_le_one_left (two_zpow_pos e).le hfive
    have htwo : (m : ℚ) * 2 ^ e < 2 ^ (-1075 : ℤ) := by
      have hstep := succ_mul_le_two_zpow m e
      have hfar : (2 : ℚ) ^ ((m.log2 : ℤ) + 1 + e) ≤ 2 ^ (-1075 : ℤ) := two_zpow_le (by omega)
      have hpow := two_zpow_pos e
      linarith
    have hgt := near.gt fits
    have hscaled := mul_le_mul_of_nonneg_left hle (by linarith : (0 : ℚ) ≤ m)
    linarith
  rw [UnpackedFloat.ofScientific, dif_neg hpos, if_neg hgreat, if_neg hsmall]
  split_ifs with hsign
  · have hvalue : ((m <<< 53 : Nat) * 2 ^ (-53 : ℤ) : ℚ) * ((10 ^ e.toNat : Nat) * 2 ^ (0 : ℤ)) =
        m * 10 ^ e := by
      have hexponent : (10 : ℚ) ^ e = 10 ^ e.toNat := by
        rw [← zpow_natCast, Int.toNat_of_nonneg hsign]
      have hunit : (2 : ℚ) ^ 53 * 2 ^ (-53 : ℤ) = 1 := by norm_num
      rw [hexponent, Nat.shiftLeft_eq, zpow_zero]
      push_cast
      linear_combination (m * 10 ^ e.toNat : ℚ) * hunit
    rw [← hvalue] at near
    refine near.mul_eq _ _ fits ?_
    have hbits : 53 ≤ (m <<< 53 * 10 ^ e.toNat).log2 := by
      have hle : 2 ^ 53 ≤ m <<< 53 * 10 ^ e.toNat := by
        rw [Nat.shiftLeft_eq]
        calc 2 ^ 53 ≤ m * 2 ^ 53 := Nat.le_mul_of_pos_left _ (Nat.pos_of_ne_zero hpos)
          _ ≤ m * 2 ^ 53 * 10 ^ e.toNat := Nat.le_mul_of_pos_right _ (Nat.pow_pos (by decide))
      exact (Nat.le_log2 (by omega)).mpr hle
    show -53 + 0 ≤ roundingExponent (m <<< 53 * 10 ^ e.toNat) (-53 + 0)
    rw [roundingExponent_eq]
    omega
  · have hvalue : ((m : Nat) * 2 ^ (0 : ℤ) : ℚ) / ((10 ^ (-e).toNat : Nat) * 2 ^ (0 : ℤ)) =
        m * 10 ^ e := by
      have hexponent : (10 : ℚ) ^ e = (10 ^ (-e).toNat)⁻¹ := by
        rw [← zpow_natCast, ← zpow_neg]
        congr 1
        omega
      rw [hexponent]
      push_cast
      simp [div_eq_mul_inv]
    rw [← hvalue] at near
    exact near.div_eq _ _ fits

end Magnitude

end Autoscaling
