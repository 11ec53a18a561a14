import Autoscaling.Proofs.Decimal.Rounding

/-!
# The bits of a double

A double has a sign of one bit, an exponent of eleven and a fraction of 52.  The size that is read
off the bits of a finite double is kept in them, so a finite double is that of its sign and its
size.
-/

namespace Autoscaling

open Float.Model Float.Model.UnpackedFloat

/-! ## Packing and unpacking -/

/-- The sign is unpacked as it was packed; for exponent and fraction the library has this. -/
theorem unpackSign_packComponents (spec : Format) (sign : Sign) (exponent : BitVec spec.exponentBits)
    (fraction : BitVec spec.mantissaBitsWithoutImplicit) :
    Sign.ofBitVec (unpackSign (packComponents spec sign exponent fraction)) = sign := by
  have hsign : unpackSign (packComponents spec sign exponent fraction) = sign.toBitVec := by
    ext i hi
    obtain rfl : i = 0 := by omega
    simp [unpackSign, packComponents, BitVec.getLsbD_append, BitVec.getElem_append]
  rw [hsign]
  cases sign <;> rfl

theorem unpack_packComponents (sign : Sign) (exponent : BitVec 11) (fraction : BitVec 52) :
    UnpackedFloat.unpack Format.binary64 (packComponents Format.binary64 sign exponent fraction) =
      if exponent = -1#11 then if fraction = 0#52 then .infinity sign else .notANumber
      else if exponent = 0#11 then
        if h : fraction = 0#52 then .zero sign
        else .finite sign fraction.toNat (-1074) (by simpa [BitVec.toNat_pos, BitVec.pos_iff_ne_zero])
      else .finite sign (2 ^ 52 + fraction.toNat) (exponent.toNat - 1075) (by omega) := by
  have hfraction : (1#1 ++ fraction).toNat = 2 ^ 52 + fraction.toNat := by
    rw [BitVec.toNat_append, ← Nat.shiftLeft_add_eq_or_of_lt fraction.isLt]
    rfl
  simp only [UnpackedFloat.unpack, unpackMantissa_packComponents, unpackExponent_packComponents,
    unpackSign_packComponents, hfraction]
  have hbias : ((Format.binary64.exponentBias : Nat) : Int) + ((52 : Nat) : Int) = 1075 := rfl
  simp only [hbias]
  by_cases hzero : exponent = 0#11
  · subst hzero
    rfl
  · simp only [hzero, if_false]

namespace Magnitude

/-- The size with an exponent and a fraction in its bits. -/
def ofComponents (exponent : BitVec 11) (fraction : BitVec 52) : Magnitude :=
  if exponent = 0#11 then ⟨fraction.toNat, -1074⟩
  else ⟨2 ^ 52 + fraction.toNat, exponent.toNat - 1075⟩

section Components

variable {exponent : BitVec 11} (fraction : BitVec 52)

theorem unpack_components (hfinite : exponent ≠ -1#11) (sign : Sign) :
    UnpackedFloat.unpack .binary64 (packComponents .binary64 sign exponent fraction) =
      (ofComponents exponent fraction).unpacked sign := by
  rw [unpack_packComponents, if_neg hfinite, ofComponents]
  by_cases hzero : exponent = 0#11
  · rw [if_pos hzero, if_pos hzero]
    by_cases hfraction : fraction = 0#52
    · rw [dif_pos hfraction, hfraction]
      rfl
    · have hpos : 0 < fraction.toNat := Nat.pos_of_ne_zero fun h =>
        hfraction (BitVec.eq_of_toNat_eq h)
      rw [dif_neg hfraction, unpacked_eq hpos]
  · have hpos : 0 < 2 ^ 52 + fraction.toNat := by omega
    rw [if_neg hzero, if_neg hzero, unpacked_eq hpos]

theorem fits_components (hfinite : exponent ≠ -1#11) :
    ((ofComponents exponent fraction).mantissa ≠ 0 → (ofComponents exponent fraction).Fits) ∧
      (ofComponents exponent fraction).exponent ≤ 971 := by
  have hfraction : fraction.toNat < 2 ^ 52 := fraction.isLt
  rw [ofComponents]
  by_cases hzero : exponent = 0#11
  · rw [if_pos hzero]
    refine ⟨fun hpos => ⟨Nat.pos_of_ne_zero hpos, ?_, Int.le_refl _, .inr rfl⟩, ?_⟩
    · show fraction.toNat < 2 ^ 53
      omega
    · show (-1074 : Int) ≤ 971
      decide
  · have hpos : exponent.toNat ≠ 0 := fun h => hzero (BitVec.eq_of_toNat_eq h)
    have hless : exponent.toNat ≠ 2047 := fun h => hfinite (BitVec.eq_of_toNat_eq h)
    have hlt : exponent.toNat < 2048 := exponent.isLt
    rw [if_neg hzero]
    refine ⟨fun hpos => ⟨Nat.pos_of_ne_zero hpos, ?_, ?_, .inl (Nat.le_add_right ..)⟩, ?_⟩
    · show 2 ^ 52 + fraction.toNat < 2 ^ 53
      omega
    · show (-1074 : Int) ≤ exponent.toNat - 1075
      omega
    · show (exponent.toNat - 1075 : Int) ≤ 971
      omega

theorem ofNat_toNat_self {n : Nat} (b : BitVec n) : BitVec.ofNat n b.toNat = b := by
  rw [BitVec.ofNat_toNat, BitVec.setWidth_eq]

theorem pack_components (hfinite : exponent ≠ -1#11) (sign : Sign) :
    UnpackedFloat.pack .binary64 ((ofComponents exponent fraction).unpacked sign) =
      packComponents .binary64 sign exponent fraction := by
  have hlt : fraction.toNat < 2 ^ 52 := fraction.isLt
  rw [ofComponents]
  by_cases hzero : exponent = 0#11
  · rw [if_pos hzero, hzero]
    by_cases hfraction : fraction = 0#52
    · rw [hfraction]
      rfl
    · have hpos : 0 < fraction.toNat := Nat.pos_of_ne_zero fun h =>
        hfraction (BitVec.eq_of_toNat_eq h)
      have hlog : fraction.toNat.log2 + 1 ≠ Format.binary64.mantissaBits := by
        have hlog := (Nat.log2_lt hpos.ne').mpr hlt
        show fraction.toNat.log2 + 1 ≠ 53
        omega
      rw [unpacked_eq hpos, UnpackedFloat.pack]
      have hexponent : ¬ 2 ^ 11 ≤ ((-1074 : Int) + ((Format.binary64.exponentBias : Nat) : Int) +
          ((52 : Nat) : Int)).toNat + 1 := by decide
      rw [if_neg hexponent, if_neg hlog]
      exact congrArg _ (ofNat_toNat_self fraction)
  · have hpos : 0 < 2 ^ 52 + fraction.toNat := by omega
    have hlog : (2 ^ 52 + fraction.toNat).log2 + 1 = Format.binary64.mantissaBits :=
      congrArg (· + 1) ((Nat.log2_eq_iff hpos.ne').mpr ⟨by omega, by omega⟩)
    have hless : exponent.toNat ≠ 2047 := fun h => hfinite (BitVec.eq_of_toNat_eq h)
    have hexponent : exponent.toNat < 2048 := exponent.isLt
    have hbiased : ((exponent.toNat - 1075 : Int) + ((Format.binary64.exponentBias : Nat) : Int) +
        ((52 : Nat) : Int)).toNat = exponent.toNat := by
      show ((exponent.toNat - 1075 : Int) + 1023 + 52).toNat = exponent.toNat
      omega
    rw [if_neg hzero, unpacked_eq hpos, UnpackedFloat.pack]
    simp only [hbiased]
    rw [if_neg (by omega), if_pos hlog]
    congr 1
    · exact ofNat_toNat_self exponent
    · refine BitVec.eq_of_toNat_eq ?_
      rw [BitVec.toNat_ofNat]
      omega

end Components

/-- Every size that fits, with an exponent that is not too great, has an exponent and a fraction. -/
theorem Fits.exists_components {v : Magnitude} (fits : v.Fits) (hgreatest : v.exponent ≤ 971) :
    ∃ exponent fraction, exponent ≠ -1#11 ∧ ofComponents exponent fraction = v := by
  obtain ⟨m, e⟩ := v
  obtain ⟨hpos, hlt, hleast, hfull⟩ := fits
  simp only [leastExponent, leadingBit] at hpos hlt hleast hfull hgreatest
  by_cases hnormal : 2 ^ 52 ≤ m
  · have hexponent : (BitVec.ofNat 11 (e + 1075).toNat).toNat = (e + 1075).toNat := by
      rw [BitVec.toNat_ofNat, Nat.mod_eq_of_lt (by omega)]
    have hfraction : (BitVec.ofNat 52 (m - 2 ^ 52)).toNat = m - 2 ^ 52 := by
      rw [BitVec.toNat_ofNat, Nat.mod_eq_of_lt (by omega)]
    have ne_of_toNat {b : BitVec 11} (h : (e + 1075).toNat ≠ b.toNat) :
        BitVec.ofNat 11 (e + 1075).toNat ≠ b := fun heq => h (by rw [← heq, hexponent])
    have hinfinite : (e + 1075).toNat ≠ (-1#11 : BitVec 11).toNat := by
      show (e + 1075).toNat ≠ 2047
      omega
    have hzero : (e + 1075).toNat ≠ (0#11).toNat := by
      show (e + 1075).toNat ≠ 0
      omega
    refine ⟨_, BitVec.ofNat 52 (m - 2 ^ 52), ne_of_toNat hinfinite, ?_⟩
    rw [ofComponents, if_neg (ne_of_toNat hzero), hexponent, hfraction,
      Nat.add_sub_cancel' hnormal, show ((e + 1075).toNat - 1075 : Int) = e by omega]
  · have hfraction : (BitVec.ofNat 52 m).toNat = m := by
      rw [BitVec.toNat_ofNat, Nat.mod_eq_of_lt (by omega)]
    refine ⟨0#11, BitVec.ofNat 52 m, by decide, ?_⟩
    rw [ofComponents, if_pos rfl, hfraction, hfull.resolve_left hnormal]

/-- Such a size is kept in the bits of a double. -/
theorem Fits.unpack_pack {v : Magnitude} (fits : v.Fits) (hgreatest : v.exponent ≤ 971)
    (sign : Sign) :
    UnpackedFloat.unpack .binary64 (UnpackedFloat.pack .binary64 (v.unpacked sign)) =
      v.unpacked sign := by
  obtain ⟨exponent, fraction, hfinite, rfl⟩ := fits.exists_components hgreatest
  rw [pack_components fraction hfinite, unpack_components fraction hfinite]

/-- The double of a size, with a sign. -/
def double (sign : Sign) (v : Magnitude) : Float := .ofModel (.pack (v.unpacked sign))

theorem Fits.unpack_double {v : Magnitude} (fits : v.Fits) (hgreatest : v.exponent ≤ 971)
    (sign : Sign) : (v.double sign).toModel.unpack = v.unpacked sign :=
  fits.unpack_pack hgreatest sign

theorem isFinite_double {v : Magnitude} (fits : v.mantissa ≠ 0 → v.Fits)
    (hgreatest : v.exponent ≤ 971) (sign : Sign) : (v.double sign).isFinite = true := by
  by_cases hzero : v.mantissa = 0
  · have hunpacked : v.unpacked sign = .zero sign := dif_pos hzero
    show (UnpackedFloat.unpack .binary64
      (UnpackedFloat.pack .binary64 (v.unpacked sign))).isFinite = true
    rw [hunpacked]
    cases sign <;> decide +kernel
  · show UnpackedFloat.isFinite (v.double sign).toModel.unpack = true
    rw [(fits hzero).unpack_double hgreatest, unpacked_eq (fits hzero).pos]
    rfl

/-! ## Finite doubles -/

theorem toNat_unpackMantissa (b : BitVec Format.binary64.numBits) :
    (@unpackMantissa .binary64 b).toNat = b.toNat % leadingBit := by
  simp [unpackMantissa, leadingBit, BitVec.extractLsb_toNat]

theorem toNat_unpackExponent (b : BitVec Format.binary64.numBits) :
    (@unpackExponent .binary64 b).toNat = b.toNat / leadingBit % 2048 := by
  simp [unpackExponent, leadingBit, BitVec.extractLsb_toNat, Nat.shiftRight_eq_div_pow]

theorem toNat_unpackSign (b : BitVec Format.binary64.numBits) :
    (@unpackSign .binary64 b).toNat = b.toNat / (2048 * leadingBit) := by
  have hlt : b.toNat < 2 ^ 64 := b.isLt
  simp [unpackSign, leadingBit, BitVec.extractLsb_toNat, Nat.shiftRight_eq_div_pow]
  omega

/-- The sign of a double. -/
def signOf (x : Float) : Sign := if isNegative x then .negative else .positive

theorem signOf_eq (x : Float) :
    signOf x = Sign.ofBitVec (@unpackSign .binary64 x.toModel.toBits.toBitVec) := by
  have hsign := toNat_unpackSign x.toModel.toBits.toBitVec
  generalize @unpackSign .binary64 x.toModel.toBits.toBitVec = s at hsign
  have hbits : x.toBits.toNat / (2048 * leadingBit) = s.toNat := hsign.symm
  rw [signOf, isNegative, hbits]
  rcases BitVec.eq_zero_or_eq_one s with rfl | rfl <;> rfl

theorem packComponents_unpack (b : BitVec Format.binary64.numBits) :
    packComponents .binary64 (.ofBitVec (unpackSign b)) (unpackExponent b) (unpackMantissa b) = b := by
  have hsign : (Sign.ofBitVec (@unpackSign .binary64 b)).toBitVec =
      @unpackSign .binary64 b := by
    rcases BitVec.eq_zero_or_eq_one (@unpackSign .binary64 b) with h | h <;> rw [h] <;> rfl
  refine BitVec.eq_of_toNat_eq ?_
  rw [packComponents, hsign, BitVec.toNat_append, BitVec.toNat_append,
    ← Nat.shiftLeft_add_eq_or_of_lt (unpackMantissa b).isLt, 
    ← Nat.shiftLeft_add_eq_or_of_lt (unpackExponent b).isLt,
    toNat_unpackMantissa, toNat_unpackExponent, toNat_unpackSign]
  simp only [Nat.shiftLeft_eq, leadingBit]
  omega

theorem ofFloat_eq (x : Float) :
    ofFloat x = ofComponents (@unpackExponent .binary64 x.toModel.toBits.toBitVec)
      (@unpackMantissa .binary64 x.toModel.toBits.toBitVec) := by
  have hfield : x.toBits.toNat / leadingBit % 2048 =
    (@unpackExponent .binary64 x.toModel.toBits.toBitVec).toNat :=
      (toNat_unpackExponent _).symm
  have hfraction : x.toBits.toNat % leadingBit =
    (@unpackMantissa .binary64 x.toModel.toBits.toBitVec).toNat :=
      (toNat_unpackMantissa _).symm
  simp only [ofFloat, ofComponents, hfield, hfraction]
  refine if_congr ?_ rfl rfl
  exact ⟨fun h => BitVec.eq_of_toNat_eq h, fun h => congrArg BitVec.toNat h⟩

theorem unpackExponent_ne {x : Float} (finite : x.isFinite = true) :
    @unpackExponent .binary64 x.toModel.toBits.toBitVec ≠ -1#11 := fun h => by
  have hunpack : x.toModel.unpack = UnpackedFloat.unpack .binary64 x.toModel.toBits.toBitVec := rfl
  rw [← packComponents_unpack x.toModel.toBits.toBitVec, unpack_packComponents, if_pos h] at hunpack
  have finite : UnpackedFloat.isFinite x.toModel.unpack = true := finite
  rw [hunpack] at finite
  split_ifs at finite <;> exact absurd finite Bool.false_ne_true

theorem unpack_of_isFinite {x : Float} (finite : x.isFinite = true) :
    x.toModel.unpack = (ofFloat x).unpacked (signOf x) := by
  have hunpack := unpack_components (@unpackMantissa .binary64 x.toModel.toBits.toBitVec)
    (unpackExponent_ne finite) (signOf x)
  rw [← ofFloat_eq, signOf_eq, packComponents_unpack] at hunpack
  rw [signOf_eq]
  exact hunpack

theorem float_ext {x y : Float} (h : x.toBits = y.toBits) : x = y := by
  obtain ⟨⟨bits, _⟩⟩ := x
  obtain ⟨⟨bits', _⟩⟩ := y
  obtain rfl : bits = bits' := h
  rfl

/-- A finite double is that of its size and sign. -/
theorem eq_double {x : Float} (finite : x.isFinite = true) : x = (ofFloat x).double (signOf x) := by
  have hpack := pack_components (@unpackMantissa .binary64 x.toModel.toBits.toBitVec)
    (unpackExponent_ne finite) (signOf x)
  rw [← ofFloat_eq, signOf_eq, packComponents_unpack] at hpack
  refine float_ext ?_
  rw [signOf_eq]
  exact congrArg UInt64.ofBitVec hpack.symm

theorem fits_ofFloat {x : Float} (finite : x.isFinite = true) (hpos : (ofFloat x).mantissa ≠ 0) :
    (ofFloat x).Fits := by
  rw [ofFloat_eq] at hpos ⊢
  exact (fits_components _ (unpackExponent_ne finite)).1 hpos

theorem exponent_ofFloat_le {x : Float} (finite : x.isFinite = true) : (ofFloat x).exponent ≤ 971 := by
  rw [ofFloat_eq]
  exact (fits_components _ (unpackExponent_ne finite)).2

theorem neg_unpacked (v : Magnitude) (sign : Sign) :
    (v.unpacked sign).neg = v.unpacked (-sign) := by
  unfold unpacked
  split_ifs <;> rfl

/-- A finite double has a double of the other sign and the same size. -/
theorem neg_eq_double {x : Float} (finite : x.isFinite = true) :
    -x = (ofFloat x).double (-signOf x) := by
  show Float.ofModel (.pack x.toModel.unpack.neg) = _
  rw [unpack_of_isFinite finite, neg_unpacked]
  rfl

theorem isFinite_neg {x : Float} (finite : x.isFinite = true) : (-x).isFinite = true := by
  rw [neg_eq_double finite]
  exact isFinite_double (fits_ofFloat finite) (exponent_ofFloat_le finite) _

end Magnitude

end Autoscaling
