import Autoscaling.Decimal.Layout
import Autoscaling.Proofs.Decimal.Doubles

/-!
# The shortest decimal of a double

The decimal that is written for a double lies in the interval of the double's size
(`Magnitude.Fits.shortest_spec`), so it is read as the same double (`Magnitude.nearest_eq_self`).
The search through the grids finds one: on the last of them the multiples are closer together than
the interval is wide.
-/

namespace Autoscaling

open Float.Model Float.Model.UnpackedFloat

namespace Magnitude

variable {v : Magnitude} {e : Int} {k : Nat} {tie : Tie}

/-! ## Grids -/

/-- A power as a quotient of two powers, of which one has the exponent zero. -/
theorem zpow_eq_div (b : ℚ) (hb : b ≠ 0) (e : Int) : b ^ e = b ^ e.toNat / b ^ (-e).toNat := by
  rw [eq_div_iff (pow_ne_zero _ hb), ← zpow_natCast, ← zpow_natCast, ← zpow_add₀ hb]
  congr 1
  omega

/-- A quarter of the last place of a size, on a grid. -/
theorem quarter_eq (v : Magnitude) (e : Int) :
    ((Nat.pow 2 (v.exponent - 2).toNat * Nat.pow 10 (-e).toNat : Nat) : ℚ) * 10 ^ e =
      2 ^ v.exponent / 4 * (Nat.pow 2 (-(v.exponent - 2)).toNat * Nat.pow 10 e.toNat : Nat) := by
  have htwo : (2 : ℚ) ^ v.exponent / 4 = 2 ^ (v.exponent - 2) := by
    rw [zpow_sub₀ (by norm_num)]
    norm_num
  have h₁ : (2 : ℚ) ^ (-(v.exponent - 2)).toNat ≠ 0 := by positivity
  have h₂ : (10 : ℚ) ^ (-e).toNat ≠ 0 := by positivity
  rw [htwo, zpow_eq_div 2 (by norm_num) (v.exponent - 2), zpow_eq_div 10 (by norm_num) e]
  push_cast [Nat.pow_eq]
  field_simp

section Covers

variable {num den : Nat}

theorem mul_num_eq (hquarter : (num : ℚ) * 10 ^ e = 2 ^ v.exponent / 4 * den) (a : Nat) :
    ((a * num : Nat) : ℚ) * 10 ^ e = a / 4 * 2 ^ v.exponent * den := by
  push_cast
  linear_combination (a : ℚ) * hquarter

theorem mul_num_le_iff (hden : 0 < den)
    (hquarter : (num : ℚ) * 10 ^ e = 2 ^ v.exponent / 4 * den) (a : Nat) :
    a * num ≤ k * den ↔ (a / 4 : ℚ) * 2 ^ v.exponent ≤ k * 10 ^ e := by
  have hten : (0 : ℚ) < 10 ^ e := zpow_pos (by norm_num) e
  have hden : (0 : ℚ) < den := by exact_mod_cast hden
  rw [← Nat.cast_le (α := ℚ), ← mul_le_mul_iff_of_pos_right hten, mul_num_eq hquarter a,
    Nat.cast_mul, mul_right_comm (k : ℚ), mul_le_mul_iff_of_pos_right hden]

theorem le_mul_num_iff (hden : 0 < den)
    (hquarter : (num : ℚ) * 10 ^ e = 2 ^ v.exponent / 4 * den) (a : Nat) :
    k * den ≤ a * num ↔ (k * 10 ^ e : ℚ) ≤ a / 4 * 2 ^ v.exponent := by
  have hten : (0 : ℚ) < 10 ^ e := zpow_pos (by norm_num) e
  have hden : (0 : ℚ) < den := by exact_mod_cast hden
  rw [← Nat.cast_le (α := ℚ), ← mul_le_mul_iff_of_pos_right hten, mul_num_eq hquarter a,
    Nat.cast_mul, mul_right_comm, mul_le_mul_iff_of_pos_right hden]

/-- The test whether a multiple is in the interval is exact. -/
theorem covers_iff (hden : 0 < den)
    (hquarter : (num : ℚ) * 10 ^ e = 2 ^ v.exponent / 4 * den) (hpos : 0 < v.mantissa) :
    v.covers num den k = true ↔ v.Near (k * 10 ^ e) := by
  have hbelow : v.quartersBelow ≤ 4 * v.mantissa := by
    rcases v.quartersBelow_cases with ⟨hbelow, -⟩ | ⟨hbelow, -⟩ <;> omega
  have hlow : (((4 * v.mantissa - v.quartersBelow : Nat) : ℚ) / 4) =
      v.mantissa - v.quartersBelow / 4 := by
    push_cast [hbelow]
    ring
  have hhigh : (((4 * v.mantissa + 2 : Nat) : ℚ) / 4) = v.mantissa + 1 / 2 := by
    push_cast
    ring
  have low := mul_num_le_iff (k := k) hden hquarter (4 * v.mantissa - v.quartersBelow)
  have high := le_mul_num_iff (k := k) hden hquarter (4 * v.mantissa + 2)
  have low' := le_mul_num_iff (k := k) hden hquarter (4 * v.mantissa - v.quartersBelow)
  have high' := mul_num_le_iff (k := k) hden hquarter (4 * v.mantissa + 2)
  rw [hlow] at low low'
  rw [hhigh] at high high'
  unfold covers
  split_ifs with heven
  · simp only [Bool.and_eq_true, decide_eq_true_eq, low, high]
    exact ⟨fun h => ⟨h.1, h.2, fun hodd => by omega⟩, fun near => ⟨near.low, near.high⟩⟩
  · simp only [Bool.and_eq_true, decide_eq_true_eq, ← not_le, low', high']
    refine ⟨fun h => ⟨(not_le.mp h.1).le, (not_le.mp h.2).le, fun _ => ?_⟩, fun near => ?_⟩
    · exact ⟨not_le.mp h.1, not_le.mp h.2⟩
    · obtain ⟨h₁, h₂⟩ := near.odd (by omega)
      exact ⟨not_le.mpr h₁, not_le.mpr h₂⟩

end Covers

/-- What is written for a size on a grid is in its interval. -/
theorem near_of_onGrid? (hpos : 0 < v.mantissa) (h : v.onGrid? tie e = some k) :
    v.Near (k * 10 ^ e) := by
  have hden : 0 < Nat.pow 2 (-(v.exponent - 2)).toNat * Nat.pow 10 e.toNat :=
    Nat.mul_pos (Nat.pow_pos (by decide)) (Nat.pow_pos (by decide))
  have hquarter := v.quarter_eq e
  simp only [onGrid?, Bool.and_eq_true] at h
  generalize Nat.pow 2 (v.exponent - 2).toNat * Nat.pow 10 (-e).toNat = num at *
  generalize Nat.pow 2 (-(v.exponent - 2)).toNat * Nat.pow 10 e.toNat = den at *
  refine (covers_iff hden hquarter hpos).mp ?_
  split_ifs at h with hboth hless hmore hbelow habove
  · exact Option.some.inj h ▸ hboth.1.2
  · exact Option.some.inj h ▸ hboth.2
  · cases tie with
    | even =>
        rw [← Option.some.inj h]
        rcases Nat.mod_two_eq_zero_or_one (4 * v.mantissa * num / den) with heven | hodd
        · rw [heven]
          exact hboth.1.2
        · rw [hodd]
          exact hboth.2
    | up => exact Option.some.inj h ▸ hboth.2
  · exact Option.some.inj h ▸ hbelow.2
  · exact Option.some.inj h ▸ habove

/-- A grid that is finer than the interval is wide above the size has a number in it. -/
theorem onGrid?_ne_none (hpos : 0 < v.mantissa) (hfine : (10 : ℚ) ^ e < 2 ^ v.exponent / 2) :
    v.onGrid? tie e ≠ none := by
  intro h
  have hden : 0 < Nat.pow 2 (-(v.exponent - 2)).toNat * Nat.pow 10 e.toNat :=
    Nat.mul_pos (Nat.pow_pos (by decide)) (Nat.pow_pos (by decide))
  have hquarter := v.quarter_eq e
  simp only [onGrid?, Bool.and_eq_true] at h
  generalize Nat.pow 2 (v.exponent - 2).toNat * Nat.pow 10 (-e).toNat = num at *
  generalize Nat.pow 2 (-(v.exponent - 2)).toNat * Nat.pow 10 e.toNat = den at *
  have habove : ¬ v.covers num den (4 * v.mantissa * num / den + 1) = true := by
    split_ifs at h with _ _ _ _ habove
    · cases tie <;> simp at h
    · exact habove
  refine habove ((covers_iff hden hquarter hpos).mpr ?_)
  -- the multiple above the size exceeds it by no more than the grid's spacing
  have hvalue : (((4 * v.mantissa : Nat) : ℚ) / 4) = v.mantissa := by
    push_cast
    ring
  have hle := (le_mul_num_iff hden hquarter (4 * v.mantissa)).mp (Nat.div_mul_le_self _ den)
  have hlt := (le_mul_num_iff (k := 4 * v.mantissa * num / den + 1) hden hquarter
    (4 * v.mantissa)).not.mp (Nat.not_le.mpr (Nat.lt_div_mul_add hden |>.trans_eq (by ring)))
  rw [hvalue] at hle hlt
  have hbelow : (0 : ℚ) ≤ v.quartersBelow / 4 * 2 ^ v.exponent := by positivity
  have hlow : (v.mantissa - v.quartersBelow / 4 : ℚ) * 2 ^ v.exponent <
      ((4 * v.mantissa * num / den + 1 : Nat) : ℚ) * 10 ^ e := by
    have hlt := not_le.mp hlt
    linarith
  have hhigh : ((4 * v.mantissa * num / den + 1 : Nat) : ℚ) * 10 ^ e <
      (v.mantissa + 1 / 2 : ℚ) * 2 ^ v.exponent := by
    push_cast
    linarith
  exact ⟨hlow.le, hhigh.le, fun _ => ⟨hlow, hhigh⟩⟩

/-! ## The search -/

/-- The search finds a number if the last grid has one. -/
theorem search_spec {fuel : Nat} (h : v.onGrid? tie (e - fuel) ≠ none) :
    ∃ k e', search tie v (fuel + 1) e = ⟨k, e'⟩ ∧ v.onGrid? tie e' = some k ∧
      e - fuel ≤ e' ∧ e' ≤ e := by
  induction fuel generalizing e with
  | zero =>
      cases hgrid : v.onGrid? tie e with
      | none => simp [hgrid] at h
      | some k => exact ⟨k, e, by simp [search, hgrid], hgrid, by simp, Int.le_refl e⟩
  | succ fuel ih =>
      cases hgrid : v.onGrid? tie e with
      | none =>
          have hnext : e - 1 - fuel = e - (fuel + 1 : Nat) := by omega
          obtain ⟨k, e', hsearch, hfound, hlow, hhigh⟩ := ih (hnext ▸ h)
          refine ⟨k, e', ?_, hfound, by omega, by omega⟩
          rw [search, hgrid]
          exact hsearch
      | some k => exact ⟨k, e, by simp [search, hgrid], hgrid, by omega, Int.le_refl e⟩

/-- A power of ten against one of two; ten to the tenth is more than two to the 33rd, and ten to the
third is less than two to the tenth. -/
theorem ten_zpow_le_two_zpow {x y : Int} (h₁ : 10 * x ≤ 3 * y) (h₂ : 33 * x ≤ 10 * y) :
    (10 : ℚ) ^ x ≤ 2 ^ y := by
  have hten : (0 : ℚ) ≤ 10 ^ x := by positivity
  have htwo : (0 : ℚ) ≤ 2 ^ y := by positivity
  rcases Int.le_total 0 x with hx | hx
  · refine le_of_pow_le_pow_left₀ (n := 3) (by decide) htwo ?_
    calc ((10 : ℚ) ^ x) ^ 3 = (10 ^ 3) ^ x := by
          rw [← zpow_natCast, ← zpow_mul, ← zpow_natCast 10 3, ← zpow_mul, mul_comm]
      _ ≤ (2 ^ 10) ^ x := zpow_le_zpow_left₀ hx (by norm_num) (by norm_num)
      _ = 2 ^ (10 * x) := by rw [← zpow_natCast 2 10, ← zpow_mul]; rfl
      _ ≤ 2 ^ (3 * y) := two_zpow_le h₁
      _ = (2 ^ y) ^ 3 := by rw [← zpow_natCast, ← zpow_mul, mul_comm]; rfl
  · refine le_of_pow_le_pow_left₀ (n := 10) (by decide) htwo ?_
    calc ((10 : ℚ) ^ x) ^ 10 = (10 ^ 10) ^ x := by
          rw [← zpow_natCast, ← zpow_mul, ← zpow_natCast 10 10, ← zpow_mul, mul_comm]
      _ ≤ (2 ^ 33) ^ x := by
          obtain ⟨n, rfl⟩ : ∃ n : Nat, x = -n := ⟨x.natAbs, by omega⟩
          rw [zpow_neg, zpow_neg, zpow_natCast, zpow_natCast]
          exact inv_anti₀ (by positivity) (pow_le_pow_left₀ (by norm_num) (by norm_num) n)
      _ = 2 ^ (33 * x) := by rw [← zpow_natCast 2 33, ← zpow_mul]; rfl
      _ ≤ 2 ^ (10 * y) := two_zpow_le h₂
      _ = (2 ^ y) ^ 10 := by rw [← zpow_natCast, ← zpow_mul, mul_comm]; rfl

/-- Among 40 grids from the coarsest one on there is one that is fine enough. -/
theorem Fits.shortest_spec (fits : v.Fits) (hgreatest : v.exponent ≤ 971) (tie : Tie) :
    v.Near ((v.shortest tie).digits * 10 ^ (v.shortest tie).exponent) ∧
      v.coarsest - 39 ≤ (v.shortest tie).exponent := by
  have hlog : v.mantissa.log2 < 53 := (Nat.log2_lt fits.pos.ne').mpr fits.lt
  have hleast := fits.least
  simp only [leastExponent] at hleast
  have hfine : (10 : ℚ) ^ (v.coarsest - (39 : Nat)) < 2 ^ v.exponent / 2 := by
    have hle : (10 : ℚ) ^ (v.coarsest - (39 : Nat)) ≤ 2 ^ (v.exponent - 2) := by
      refine ten_zpow_le_two_zpow ?_ ?_ <;> simp only [coarsest] <;> omega
    have hpos := two_zpow_pos v.exponent
    have hquarter : (2 : ℚ) ^ (v.exponent - 2) = 2 ^ v.exponent / 4 := by
      rw [zpow_sub₀ (by norm_num)]
      norm_num
    rw [hquarter] at hle
    exact lt_of_le_of_lt hle (by linarith)
  have hlast : v.onGrid? tie (v.coarsest - (39 : Nat)) ≠ none := onGrid?_ne_none fits.pos hfine
  obtain ⟨k, e, hsearch, hgrid, hlow, -⟩ := search_spec hlast
  rw [shortest, if_neg fits.pos.ne', hsearch]
  exact ⟨near_of_onGrid? fits.pos hgrid, hlow⟩

/-! ## Reading a decimal -/

section Nearest

variable {m : Nat}

/-- A number in the interval of a size is not beyond all doubles. -/
theorem Near.not_beyond (fits : v.Fits) (hgreatest : v.exponent ≤ 971)
    (near : v.Near (m * 10 ^ e)) (hlow : -400 ≤ e) :
    ¬ beyondDoubles < e + digitBound m - 1 := by
  have hlog : (2 : ℚ) ^ (m.log2 : ℤ) ≤ m := by simpa using two_zpow_log2_le (near.ne_zero fits) 0
  have hunit : (10 : ℚ) ^ e * 10 ^ (-e) = 1 := by
    rw [← zpow_add₀ (by norm_num), Int.add_right_neg, zpow_zero]
  have hbits {y : Int} (h₁ : 10 * -e ≤ 3 * y) (h₂ : 33 * -e ≤ 10 * y) :
      (m.log2 : ℤ) < 1024 + y := by
    have hten : (10 : ℚ) ^ (-e) ≤ 2 ^ y := ten_zpow_le_two_zpow h₁ h₂
    have hpos : (0 : ℚ) < 10 ^ (-e) := zpow_pos (by norm_num) _
    refine (zpow_lt_zpow_iff_right₀ (by norm_num : (1 : ℚ) < 2)).mp ?_
    calc (2 : ℚ) ^ (m.log2 : ℤ) ≤ m * 10 ^ e * 10 ^ (-e) := by rwa [mul_assoc, hunit, mul_one]
      _ < 2 ^ (v.exponent + 53) * 10 ^ (-e) := mul_lt_mul_of_pos_right (near.lt fits) hpos
      _ ≤ 2 ^ (1024 : ℤ) * 2 ^ y :=
          mul_le_mul (two_zpow_le (by omega)) hten hpos.le (two_zpow_pos _).le
      _ = 2 ^ ((1024 : ℤ) + y) := (two_zpow_add _ _).symm
  simp only [beyondDoubles, digitBound]
  rcases Int.le_total e 0 with he | he
  · have hfew := hbits (y := (-10 * e + 2) / 3) (by omega) (by omega)
    omega
  · have hfew := hbits (y := -(33 * e / 10)) (by omega) (by omega)
    omega

/-- A number in the interval of a size is not below all doubles. -/
theorem Near.not_below (fits : v.Fits) (near : v.Near (m * 10 ^ e)) (hlow : -400 ≤ e) :
    ¬ e + digitBound m + 1 < belowDoubles := by
  simp only [belowDoubles, digitBound]
  rcases Int.le_total 0 e with he | he
  · omega
  have hten : (10 : ℚ) ^ e ≤ 2 ^ (-(-33 * e / 10)) :=
    ten_zpow_le_two_zpow (by omega) (by omega)
  have hlog : (m : ℚ) < 2 ^ ((m.log2 : ℤ) + 1) := by
    have hle := succ_mul_le_two_zpow m 0
    simp only [zpow_zero, mul_one, add_zero] at hle
    linarith
  have hlt : (2 : ℚ) ^ (-1075 : ℤ) < 2 ^ ((m.log2 : ℤ) + 1 + -(-33 * e / 10)) := by
    calc (2 : ℚ) ^ (-1075 : ℤ) ≤ m * 10 ^ e := near.gt fits
      _ < 2 ^ ((m.log2 : ℤ) + 1) * 10 ^ e :=
          mul_lt_mul_of_pos_right hlog (zpow_pos (by norm_num) e)
      _ ≤ 2 ^ ((m.log2 : ℤ) + 1) * 2 ^ (-(-33 * e / 10)) :=
          mul_le_mul_of_nonneg_left hten (two_zpow_pos _).le
      _ = 2 ^ ((m.log2 : ℤ) + 1 + -(-33 * e / 10)) := (two_zpow_add _ _).symm
  have hbits := (zpow_lt_zpow_iff_right₀ (by norm_num)).mp hlt
  omega

theorem neg_double_positive (fits : v.Fits) (hgreatest : v.exponent ≤ 971) :
    -v.double .positive = v.double .negative := by
  show Float.ofModel (.pack (v.double .positive).toModel.unpack.neg) = _
  rw [fits.unpack_double hgreatest, neg_unpacked]
  rfl

/-- A decimal in the interval of a finite double is read as that double. -/
theorem nearest_eq_self {x : Float} (finite : x.isFinite = true)
    (hzero : (ofFloat x).mantissa = 0 → m = 0)
    (near : (ofFloat x).mantissa ≠ 0 → (ofFloat x).Near (m * 10 ^ e))
    (hlow : -400 ≤ e) : nearest (isNegative x) m e = x := by
  have hx := eq_double finite
  by_cases hmantissa : (ofFloat x).mantissa = 0
  · have hdouble (sign : Sign) : (ofFloat x).double sign = .ofModel (.pack (.zero sign)) :=
      congrArg (fun u => Float.ofModel (.pack u)) (dif_pos hmantissa)
    have hread : nearest (isNegative x) m e = (ofFloat x).double (signOf x) := by
      rw [hzero hmantissa, hdouble, signOf, nearest, if_pos rfl]
      cases isNegative x <;> exact float_ext (by decide +kernel)
    exact hread.trans hx.symm
  · have fits := fits_ofFloat finite hmantissa
    have hgreatest := exponent_ofFloat_le finite
    have near := near hmantissa
    have hread : nearest (isNegative x) m e = (ofFloat x).double (signOf x) := by
      rw [nearest, if_neg (near.ne_zero fits), if_neg (near.not_beyond fits hgreatest hlow),
        if_neg (near.not_below fits hlow), near.float_ofScientific_eq fits hgreatest, signOf]
      cases isNegative x with
      | true => exact neg_double_positive fits hgreatest
      | false => rfl
    exact hread.trans hx.symm

end Nearest

end Magnitude

end Autoscaling
