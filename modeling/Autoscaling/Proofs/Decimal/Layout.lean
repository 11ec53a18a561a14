import Autoscaling.Proofs.Decimal.Shortest

/-!
# Decimals written out

A decimal that is written in full has its digits on both sides of a point.  Without the point they
are the digits of a whole number, and as many powers of ten have to be taken off it as there are
digits behind the point.  In JSON text a power of ten may follow, and then the point may be missing.
A finite double is written as a number that is read as the same double (`Layout.write_file`,
`Layout.write_json`).
-/

namespace Autoscaling

namespace Digits

/-- Digits of a whole number: at least one, and no zero in front of others. -/
structure IsWhole (cs : List Char) : Prop where
  digits : cs.all (isDigit 10) = true
  nonempty : cs ≠ []
  leading : cs.head? = some '0' → cs = ['0']

theorem IsWhole.exists_head {cs : List Char} (h : IsWhole cs) :
    ∃ c more, cs = c :: more ∧ isDigit 10 c = true := by
  cases hcs : cs with
  | nil => exact absurd hcs h.nonempty
  | cons c more => exact ⟨c, more, rfl, List.all_eq_true.mp h.digits c (by simp [hcs])⟩

theorem char_ne_zero : ∀ d < 16, d ≠ 0 → char d ≠ '0' := by decide

theorem head_writeOnto {base : Nat} (two_le : 2 ≤ base) (le_sixteen : base ≤ 16) {fuel n : Nat}
    (hn : n ≠ 0) (enough : n < fuel) (tail : List Char) :
    (writeOnto base fuel n tail).head? ≠ some '0' := by
  induction fuel generalizing n tail with
  | zero => omega
  | succ fuel ih =>
      rw [writeOnto]
      split
      · rename_i small
        have hne := char_ne_zero n (by omega) hn
        rw [Nat.mod_eq_of_lt small]
        simpa using hne
      · have hless : n / base < n := Nat.div_lt_self (by omega) two_le
        have hpos : n / base ≠ 0 := Nat.div_ne_zero_iff.mpr ⟨by omega, by omega⟩
        exact ih hpos (by omega) _

theorem isWhole_decimal (n : Nat) : IsWhole (decimal n) := by
  refine ⟨all_isDigit_write (by decide) (by decide) n, write_ne_nil 10 n, fun hhead => ?_⟩
  by_cases hn : n = 0
  · rw [hn]
    rfl
  · exact absurd hhead (head_writeOnto (by decide) (by decide) hn n.lt_succ_self [])

theorem read_append (cs ds : List Char) (base : Nat) :
    read base (cs ++ ds) = ds.foldl (fun n c => base * n + (value? c).getD 0) (read base cs) :=
  List.foldl_append

theorem read_zeros_append (k : Nat) (ds : List Char) :
    read 10 (List.replicate k '0' ++ ds) = read 10 ds := by
  have hzeros : read 10 (List.replicate k '0') = 0 := by
    induction k with
    | zero => rfl
    | succ k ih =>
        rw [List.replicate_succ', read_append, ih]
        rfl
  rw [read_append, hzeros]
  rfl

theorem read_append_zeros (ds : List Char) (k : Nat) :
    read 10 (ds ++ List.replicate k '0') = read 10 ds * 10 ^ k := by
  induction k with
  | zero => simp
  | succ k ih =>
      rw [List.replicate_succ', ← List.append_assoc, read_append, ih, pow_succ]
      simp [value?]
      ring

end Digits

namespace Layout

open Digits

/-- A decimal in full: digits on both sides of a point. -/
structure InFull (cs whole fraction : List Char) : Prop where
  split : cs = whole ++ '.' :: fraction
  whole : IsWhole whole
  digits : fraction.all (isDigit 10) = true
  nonempty : fraction ≠ []

/-- The number that stands in full. -/
def valueInFull (whole fraction : List Char) : ℚ :=
  read 10 (whole ++ fraction) * 10 ^ (-(fraction.length : ℤ))

theorem all_isDigit_zeros (k : Nat) : (List.replicate k '0').all (isDigit 10) = true :=
  List.all_eq_true.mpr fun c hc => by
    rw [List.eq_of_mem_replicate hc]
    decide

variable (layout : Layout) {digits : List Char} {exponent : ℤ}

/-- All digits stand behind the point, after zeros. -/
theorem inFull_behind (hdigits : IsWhole digits) (h : (digits.length : ℤ) + exponent ≤ 0) :
    ∃ whole fraction, InFull (layout.positional digits (digits.length + exponent)) whole fraction ∧
      valueInFull whole fraction = read 10 digits * 10 ^ exponent ∧
      (fraction.length : ℤ) = -exponent := by
  have hlength : 0 < digits.length := List.length_pos_iff.mpr hdigits.nonempty
  let zeros := (-(digits.length + exponent)).toNat
  have hplaces : ((List.replicate zeros '0' ++ digits).length : ℤ) = -exponent := by
    simp only [List.length_append, List.length_replicate, zeros]
    omega
  have hread : read 10 (['0'] ++ (List.replicate zeros '0' ++ digits)) = read 10 digits := by
    rw [← List.append_assoc, List.singleton_append, ← List.replicate_succ, read_zeros_append]
  refine ⟨['0'], List.replicate zeros '0' ++ digits, ⟨?_, ⟨by decide, by simp, fun _ => rfl⟩, ?_, ?_⟩,
    ?_, hplaces⟩
  · simp [positional, h, hdigits.nonempty, zeros]
  · rw [List.all_append, all_isDigit_zeros, hdigits.digits]
    rfl
  · simp [hdigits.nonempty]
  · rw [valueInFull, hread, hplaces, neg_neg]

/-- All digits stand in front of the point, before zeros. -/
theorem inFull_front (keeps : layout.keepsPoint = true) (hdigits : IsWhole digits)
    (h : 0 ≤ exponent) (hleading : 0 < exponent → digits.head? ≠ some '0') :
    ∃ whole fraction, InFull (layout.positional digits (digits.length + exponent)) whole fraction ∧
      valueInFull whole fraction = read 10 digits * 10 ^ exponent ∧ fraction.length = 1 := by
  obtain ⟨zeros, rfl⟩ : ∃ zeros : Nat, exponent = zeros := ⟨exponent.toNat, by omega⟩
  have hlength : 0 < digits.length := List.length_pos_iff.mpr hdigits.nonempty
  have hbefore : ((digits.length : ℤ) + zeros).toNat = digits.length + zeros := by omega
  refine ⟨digits ++ List.replicate zeros '0', ['0'], ⟨?_, ⟨?_, ?_, ?_⟩, by decide, by simp⟩, ?_, rfl⟩
  · have hpos : ¬ (digits.length : ℤ) + zeros ≤ 0 := by omega
    simp [positional, hpos, hbefore, keeps, List.take_of_length_le]
  · rw [List.all_append, all_isDigit_zeros, hdigits.digits]
    rfl
  · simp [hdigits.nonempty]
  · intro hhead
    rw [List.head?_append_of_ne_nil _ hdigits.nonempty] at hhead
    obtain rfl : zeros = 0 := by
      by_contra hpos
      exact hleading (by omega) hhead
    simpa using hdigits.leading hhead
  · have hread := read_append_zeros digits (zeros + 1)
    rw [List.replicate_succ', ← List.append_assoc] at hread
    rw [valueInFull, hread]
    push_cast
    rw [pow_succ, zpow_natCast]
    norm_num
    ring

/-- The point stands among the digits. -/
theorem inFull_among (hdigits : IsWhole digits) (h : 0 < (digits.length : ℤ) + exponent)
    (hneg : exponent < 0) :
    ∃ whole fraction, InFull (layout.positional digits (digits.length + exponent)) whole fraction ∧
      valueInFull whole fraction = read 10 digits * 10 ^ exponent ∧
      (fraction.length : ℤ) = -exponent := by
  obtain ⟨before, hbefore⟩ : ∃ before : Nat, (digits.length : ℤ) + exponent = before :=
    ⟨(digits.length + exponent).toNat, by omega⟩
  have hless : before < digits.length := by omega
  have hsplit : digits.take before ++ digits.drop before = digits := List.take_append_drop ..
  have hall := hdigits.digits
  rw [← hsplit, List.all_append, Bool.and_eq_true] at hall
  have hplaces : ((digits.drop before).length : ℤ) = -exponent := by
    rw [List.length_drop]
    omega
  refine ⟨digits.take before, digits.drop before, ⟨?_, ⟨hall.1, ?_, ?_⟩, hall.2, ?_⟩, ?_, hplaces⟩
  · have hpos : before ≠ 0 := by omega
    have hfill : before - digits.length = 0 := by omega
    simp [positional, hbefore, hpos, hfill, hless]
  · rw [Ne, List.take_eq_nil_iff]
    simp [hdigits.nonempty]
    omega
  · intro hhead
    rw [List.head?_take, if_neg (by omega)] at hhead
    have hone := congrArg List.length (hdigits.leading hhead)
    rw [List.length_singleton] at hone
    omega
  · rw [Ne, List.drop_eq_nil_iff]
    omega
  · rw [valueInFull, hsplit, hplaces, neg_neg]

theorem exists_inFull (keeps : layout.keepsPoint = true) (hdigits : IsWhole digits)
    (hleading : 0 < exponent → digits.head? ≠ some '0') :
    ∃ whole fraction, InFull (layout.positional digits (digits.length + exponent)) whole fraction ∧
      valueInFull whole fraction = read 10 digits * 10 ^ exponent ∧
      (fraction.length : ℤ) ≤ max 1 (-exponent) := by
  by_cases hfront : 0 ≤ exponent
  · obtain ⟨whole, fraction, h, hvalue, hplaces⟩ :=
      inFull_front layout keeps hdigits hfront hleading
    exact ⟨whole, fraction, h, hvalue, by omega⟩
  by_cases hbehind : (digits.length : ℤ) + exponent ≤ 0
  · obtain ⟨whole, fraction, h, hvalue, hplaces⟩ := inFull_behind layout hdigits hbehind
    exact ⟨whole, fraction, h, hvalue, by omega⟩
  · obtain ⟨whole, fraction, h, hvalue, hplaces⟩ :=
      inFull_among layout hdigits (not_le.mp hbehind) (not_le.mp hfront)
    exact ⟨whole, fraction, h, hvalue, by omega⟩

/-- A decimal in a configuration file has all its digits. -/
theorem writeDecimal_file (d : Decimal) (hzero : d.digits = 0 → d.exponent = 0) :
    ∃ whole fraction, InFull (file.writeDecimal d) whole fraction ∧
      valueInFull whole fraction = d.digits * 10 ^ d.exponent ∧
      (fraction.length : ℤ) ≤ max 1 (-d.exponent) := by
  have hwrite : file.writeDecimal d =
      file.positional (decimal d.digits) ((decimal d.digits).length + d.exponent) := by
    rw [writeDecimal]
    split_ifs with h
    · rw [h, hzero h]
      rfl
    · rfl
  have hleading (h : 0 < d.exponent) : (decimal d.digits).head? ≠ some '0' :=
    head_writeOnto (by decide) (by decide) (fun hdigits => by have := hzero hdigits; omega)
      d.digits.lt_succ_self []
  have hread : read 10 (decimal d.digits) = d.digits := read_write (by decide) (by decide) d.digits
  have hfull := exists_inFull file rfl (isWhole_decimal d.digits) hleading
  rw [hread] at hfull
  rw [hwrite]
  exact hfull

/-! ## Powers of ten -/

/-- The point and the digits behind it, if there are any. -/
def pointed (fraction : List Char) : List Char := if fraction.isEmpty then [] else '.' :: fraction

/-- What stands for a power of ten, if it is written. -/
def powered : Option ℤ → List Char
  | none => []
  | some power => 'e' :: (if power < 0 then '-' else '+') :: decimal power.natAbs

/-- A number in parts: digits in front of the point, digits behind it, and a power of ten.  The
first of them do not stand alone. -/
structure InParts (cs whole fraction : List Char) (power : Option ℤ) : Prop where
  split : cs = whole ++ (pointed fraction ++ powered power)
  whole : IsWhole whole
  digits : fraction.all (isDigit 10) = true
  notAlone : fraction ≠ [] ∨ power ≠ none

/-- The number that stands in parts. -/
def valueInParts (whole fraction : List Char) (power : Option ℤ) : ℚ :=
  read 10 (whole ++ fraction) * 10 ^ (power.getD 0 - fraction.length)

theorem InFull.inParts {cs whole fraction : List Char} (h : InFull cs whole fraction) :
    InParts cs whole fraction none ∧
      valueInParts whole fraction none = valueInFull whole fraction := by
  have hpoint : pointed fraction = '.' :: fraction := by simp [pointed, h.nonempty]
  refine ⟨⟨?_, h.whole, h.digits, .inl h.nonempty⟩, ?_⟩
  · rw [hpoint, powered, List.append_nil, h.split]
  · rw [valueInParts, valueInFull, Option.getD_none, zero_sub]

theorem exists_inParts_scientific (hdigits : IsWhole digits) (power : ℤ) :
    ∃ whole fraction, InParts (scientific digits power) whole fraction (some power) ∧
      whole ++ fraction = digits ∧ (fraction.length : ℤ) = digits.length - 1 := by
  have hall := hdigits.digits
  cases hcs : digits with
  | nil => exact absurd hcs hdigits.nonempty
  | cons first rest =>
      rw [hcs, List.all_cons, Bool.and_eq_true] at hall
      have hfirst : IsWhole [first] := by
        refine ⟨by simp [hall.1], List.cons_ne_nil _ _, fun hhead => ?_⟩
        rw [Option.some.inj hhead]
      refine ⟨[first], rest, ⟨?_, hfirst, hall.2, .inr (Option.some_ne_none _)⟩, rfl, by simp⟩
      cases rest <;> rfl

/-- A decimal in JSON text has all its digits or a power of ten. -/
theorem writeDecimal_json_cases (d : Decimal) (hzero : d.digits = 0 → d.exponent = 0) :
    let digits := decimal d.digits
    json.writeDecimal d = json.positional digits (digits.length + d.exponent) ∨
      json.writeDecimal d = scientific digits (digits.length + d.exponent - 1) := by
  rw [writeDecimal]
  split_ifs with h
  · rw [h, hzero h]
    exact .inl rfl
  · dsimp only [json]
    split_ifs
    · exact .inl rfl
    · exact .inr rfl

/-- A decimal in JSON text is a number in parts, without more places than the decimal needs. -/
theorem writeDecimal_json (d : Decimal) (hzero : d.digits = 0 → d.exponent = 0) :
    ∃ whole fraction power, InParts (json.writeDecimal d) whole fraction power ∧
      valueInParts whole fraction power = d.digits * 10 ^ d.exponent ∧
      min (-1) d.exponent ≤ power.getD 0 - fraction.length := by
  have hwhole := isWhole_decimal d.digits
  have hread : read 10 (decimal d.digits) = d.digits := read_write (by decide) (by decide) d.digits
  rcases writeDecimal_json_cases d hzero with hwrite | hwrite
  · have hleading (h : 0 < d.exponent) : (decimal d.digits).head? ≠ some '0' :=
      head_writeOnto (by decide) (by decide) (fun hdigits => by have := hzero hdigits; omega)
        d.digits.lt_succ_self []
    obtain ⟨whole, fraction, h, hvalue, hplaces⟩ := exists_inFull json rfl hwhole hleading
    rw [hread] at hvalue
    refine ⟨whole, fraction, none, hwrite ▸ h.inParts.1, h.inParts.2.trans hvalue, ?_⟩
    rw [Option.getD_none]
    omega
  · obtain ⟨whole, fraction, h, hcs, hplaces⟩ := exists_inParts_scientific hwhole
      ((decimal d.digits).length + d.exponent - 1)
    have hexponent : (decimal d.digits).length + d.exponent - 1 - fraction.length = d.exponent := by
      omega
    refine ⟨whole, fraction, some _, hwrite ▸ h, ?_, ?_⟩
    · rw [valueInParts, hcs, hread, Option.getD_some, hexponent]
    · rw [Option.getD_some, hexponent]
      exact min_le_right ..

/-! ## Doubles -/

section Doubles

open Magnitude

variable {x : Float}

theorem decimal_of_zero (h : (ofFloat x).mantissa = 0) (tie : Tie) :
    Decimal.ofFloat tie x = ⟨0, 0⟩ :=
  if_pos h

/-- The decimal of a double is in the interval of its size and has not too many places. -/
theorem near_decimal (finite : x.isFinite = true) (h : (ofFloat x).mantissa ≠ 0) (tie : Tie) :
    (ofFloat x).Near ((Decimal.ofFloat tie x).digits * 10 ^ (Decimal.ofFloat tie x).exponent) ∧
      -399 ≤ (Decimal.ofFloat tie x).exponent := by
  have fits := fits_ofFloat finite h
  obtain ⟨near, hlow⟩ := fits.shortest_spec (exponent_ofFloat_le finite) tie
  have hleast := fits.least
  simp only [coarsest, leastExponent] at hlow hleast
  exact ⟨near, by simp only [Decimal.ofFloat]; omega⟩

theorem exponent_of_digits_eq_zero (finite : x.isFinite = true) {tie : Tie}
    (h : (Decimal.ofFloat tie x).digits = 0) : (Decimal.ofFloat tie x).exponent = 0 := by
  by_cases hzero : (ofFloat x).mantissa = 0
  · rw [decimal_of_zero hzero]
  · exact absurd h ((near_decimal finite hzero _).1.ne_zero (fits_ofFloat finite hzero))

/-- Whatever stands for the decimal of a double, and has not many more places, is read as the
double. -/
theorem nearest_decimal (finite : x.isFinite = true) (tie : Tie) {m : Nat} {e : ℤ}
    (hvalue : (m * 10 ^ e : ℚ) =
      (Decimal.ofFloat tie x).digits * 10 ^ (Decimal.ofFloat tie x).exponent)
    (hplaces : min (-1) (Decimal.ofFloat tie x).exponent ≤ e) :
    nearest (isNegative x) m e = x := by
  refine nearest_eq_self finite (fun hzero => ?_) (fun hzero => ?_) ?_
  · have hten : (10 : ℚ) ^ e ≠ 0 := zpow_ne_zero _ (by norm_num)
    rw [decimal_of_zero hzero, Nat.cast_zero, zero_mul] at hvalue
    exact_mod_cast (mul_eq_zero.mp hvalue).resolve_right hten
  · rw [hvalue]
    exact (near_decimal finite hzero _).1
  · by_cases hzero : (ofFloat x).mantissa = 0
    · rw [decimal_of_zero hzero] at hplaces
      exact le_trans (by decide) hplaces
    · have hlow := (near_decimal finite hzero tie).2
      omega

theorem isNaN_of_isFinite (finite : x.isFinite = true) : x.isNaN = false := by
  show x.toModel.unpack.isNaN = false
  rw [unpack_of_isFinite finite]
  unfold Magnitude.unpacked
  split_ifs <;> rfl

theorem isInf_of_isFinite (finite : x.isFinite = true) : x.isInf = false := by
  show x.toModel.unpack.isInf = false
  rw [unpack_of_isFinite finite]
  unfold Magnitude.unpacked
  split_ifs <;> rfl

theorem write_of_isFinite (finite : x.isFinite = true) :
    (layout.write x).toList = (if isNegative x then ['-'] else []) ++
      layout.writeDecimal (Decimal.ofFloat layout.tie x) := by
  rw [write, isNaN_of_isFinite finite, isInf_of_isFinite finite]
  cases isNegative x <;> simp

/-- A finite double in a configuration file is its sign and a number in full that is read as the
same double. -/
theorem write_file (finite : x.isFinite = true) :
    ∃ whole fraction cs, InFull cs whole fraction ∧
      (file.write x).toList = (if isNegative x then ['-'] else []) ++ cs ∧
      nearest (isNegative x) (read 10 (whole ++ fraction)) (-(fraction.length : ℤ)) = x := by
  obtain ⟨whole, fraction, h, hvalue, hplaces⟩ :=
    writeDecimal_file _ (exponent_of_digits_eq_zero finite)
  exact ⟨whole, fraction, _, h, write_of_isFinite file finite,
    nearest_decimal finite file.tie hvalue (by omega)⟩

/-- A finite double in JSON text is its sign and a number in parts that is read as the same
double. -/
theorem write_json (finite : x.isFinite = true) :
    ∃ whole fraction power cs, InParts cs whole fraction power ∧
      (json.write x).toList = (if isNegative x then ['-'] else []) ++ cs ∧
      nearest (isNegative x) (read 10 (whole ++ fraction)) (power.getD 0 - fraction.length) = x := by
  obtain ⟨whole, fraction, power, h, hvalue, hplaces⟩ :=
    writeDecimal_json _ (exponent_of_digits_eq_zero finite)
  exact ⟨whole, fraction, power, _, h, write_of_isFinite json finite,
    nearest_decimal finite json.tie hvalue hplaces⟩

end Doubles

end Layout

end Autoscaling
