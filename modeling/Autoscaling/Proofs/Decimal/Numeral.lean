import Autoscaling.Proofs.Decimal.Layout
import Mathlib.Data.List.Induction

/-!
# Numerals that are read

A number has one decimal numeral that is written and many that are read: there may be zeros in front
of its digits, and a plus sign in front of all that.  `Digits.IsNumeral` are these forms, and
`Digits.parse?_eq_some_iff` says that there are no others.
-/

namespace Autoscaling

namespace Digits

/-! ## The last digit -/

theorem writeOnto_append (base fuel n : Nat) (tail : List Char) :
    writeOnto base fuel n tail = writeOnto base fuel n [] ++ tail := by
  induction fuel generalizing n tail with
  | zero => rfl
  | succ fuel ih =>
      rw [writeOnto, writeOnto]
      split
      · rfl
      · rw [ih _ (char (n % base) :: tail), ih _ [char (n % base)], List.append_assoc,
          List.singleton_append]

/-- How many digits there may be does not matter, as long as there may be enough of them. -/
theorem writeOnto_congr {base : Nat} (two_le : 2 ≤ base) {fuel fuel₀ n : Nat} (enough : n < fuel)
    (enough₀ : n < fuel₀) : writeOnto base fuel n [] = writeOnto base fuel₀ n [] := by
  induction fuel generalizing n fuel₀ with
  | zero => omega
  | succ fuel ih =>
      obtain ⟨fuel₁, rfl⟩ := Nat.exists_eq_add_one_of_ne_zero (Nat.ne_zero_of_lt enough₀)
      rw [writeOnto, writeOnto]
      split
      · rfl
      · have hless : n / base < n := Nat.div_lt_self (by omega) two_le
        have hrest : writeOnto base fuel (n / base) [] = writeOnto base fuel₁ (n / base) [] :=
          ih (by omega) (by omega)
        rw [writeOnto_append, hrest, ← writeOnto_append]

theorem decimal_of_lt {d : Nat} (small : d < 10) : decimal d = [char d] := by
  rw [decimal, write, writeOnto, if_pos small, Nat.mod_eq_of_lt small]

/-- A numeral ends with its last digit; the digits before it are the numeral of the tens. -/
theorem decimal_concat {n d : Nat} (hn : n ≠ 0) (small : d < 10) :
    decimal (10 * n + d) = decimal n ++ [char d] := by
  have hdiv : (10 * n + d) / 10 = n := by omega
  have hmod : (10 * n + d) % 10 = d := by omega
  have hlarge : ¬ 10 * n + d < 10 := by omega
  rw [decimal, write, writeOnto, if_neg hlarge, hdiv, hmod, writeOnto_append,
    writeOnto_congr (by decide) (by omega) n.lt_succ_self]
  rfl

theorem read_concat {cs : List Char} {c : Char} {d : Nat} (hvalue : value? c = some d) :
    read 10 (cs ++ [c]) = 10 * read 10 cs + d := by
  rw [read_append, List.foldl_cons, List.foldl_nil, hvalue, Option.getD_some]

/-- A decimal digit is the one that is written for its value. -/
theorem exists_char_of_isDigit {c : Char} (h : isDigit 10 c = true) :
    ∃ d < 10, value? c = some d ∧ char d = c := by
  rw [isDigit] at h
  split at h
  · next d hvalue =>
      have hd : d < 10 := of_decide_eq_true h
      refine ⟨d, hd, hvalue, ?_⟩
      unfold value? at hvalue
      split_ifs at hvalue with hdigit
      · obtain rfl := Option.some.inj hvalue
        have hlow : '0'.toNat ≤ c.toNat := hdigit.1
        rw [char, if_pos hd, Nat.add_sub_cancel' hlow, Char.ofNat_toNat]
      -- letters have values from ten on
      · have hletter := Option.some.inj hvalue
        omega
      · have hletter := Option.some.inj hvalue
        omega
  · exact absurd h Bool.false_ne_true

/-! ## Zeros and signs in front -/

/-- Digits are the numeral of their value, behind zeros. -/
theorem exists_zeros {cs : List Char} (digits : cs.all (isDigit 10) = true) (nonempty : cs ≠ []) :
    ∃ zeros, cs = List.replicate zeros '0' ++ decimal (read 10 cs) := by
  induction cs using List.reverseRecOn with
  | nil => exact absurd rfl nonempty
  | append_singleton front c ih =>
      obtain ⟨hfront, hlast⟩ : front.all (isDigit 10) = true ∧ isDigit 10 c = true := by
        simpa using digits
      obtain ⟨d, small, hvalue, rfl⟩ := exists_char_of_isDigit hlast
      rw [read_concat hvalue]
      by_cases hnil : front = []
      · subst hnil
        exact ⟨0, by simp [read, decimal_of_lt small]⟩
      · obtain ⟨zeros, hzeros⟩ := ih hfront hnil
        by_cases hn : read 10 front = 0
        · -- all digits but the last one are zeros
          refine ⟨zeros + 1, ?_⟩
          rw [hn, decimal_of_lt (by decide)] at hzeros
          rw [hn, Nat.mul_zero, Nat.zero_add, decimal_of_lt small, List.replicate_succ', hzeros]
          rfl
        · refine ⟨zeros, ?_⟩
          rw [decimal_concat hn small, ← List.append_assoc, ← hzeros]

/-- A numeral of a number: the one that is written, behind zeros, and behind a plus sign or none. -/
def IsNumeral (cs : List Char) (n : Nat) : Prop :=
  ∃ sign zeros, (sign = [] ∨ sign = ['+']) ∧ cs = sign ++ List.replicate zeros '0' ++ decimal n

theorem isNumeral_of_digits {cs : List Char} (digits : cs.all (isDigit 10) = true)
    (nonempty : cs ≠ []) {sign : List Char} (hsign : sign = [] ∨ sign = ['+']) :
    IsNumeral (sign ++ cs) (read 10 cs) := by
  obtain ⟨zeros, hzeros⟩ := exists_zeros digits nonempty
  exact ⟨sign, zeros, hsign, by rw [List.append_assoc, ← hzeros]⟩

theorem parse?_append {cs : List Char} (digits : cs.all (isDigit 10) = true) (nonempty : cs ≠ [])
    {sign : List Char} (hsign : sign = [] ∨ sign = ['+']) : parse? (sign ++ cs) = some (read 10 cs) := by
  obtain ⟨c, rest, rfl⟩ := List.exists_cons_of_ne_nil nonempty
  rcases hsign with rfl | rfl
  · have hplus : c ≠ '+' := by
      rintro rfl
      exact absurd digits (by simp [isDigit, value?])
    simp [parse?, hplus, digits]
  · simp [parse?, digits]

/-- Text that is read as a number has digits, behind a plus sign or none. -/
theorem exists_digits_of_parse? {cs : List Char} {n : Nat} (h : parse? cs = some n) :
    ∃ sign ds, (sign = [] ∨ sign = ['+']) ∧ cs = sign ++ ds ∧ ds.all (isDigit 10) = true ∧
      ds ≠ [] ∧ n = read 10 ds := by
  unfold parse? at h
  split at h
  · next rest =>
      simp only at h
      split_ifs at h with hdigits
      obtain ⟨hne, hall⟩ : rest ≠ [] ∧ rest.all (isDigit 10) = true := by simpa using hdigits
      exact ⟨['+'], rest, .inr rfl, rfl, hall, hne, (Option.some.inj h).symm⟩
  · simp only at h
    split_ifs at h with hdigits
    obtain ⟨hne, hall⟩ : cs ≠ [] ∧ cs.all (isDigit 10) = true := by simpa using hdigits
    exact ⟨[], cs, .inl rfl, rfl, hall, hne, (Option.some.inj h).symm⟩

/-- What is read as a number is a numeral of it. -/
theorem parse?_eq_some_iff {cs : List Char} {n : Nat} : parse? cs = some n ↔ IsNumeral cs n := by
  constructor
  · intro h
    obtain ⟨sign, ds, hsign, rfl, hall, hne, rfl⟩ := exists_digits_of_parse? h
    exact isNumeral_of_digits hall hne hsign
  · rintro ⟨sign, zeros, hsign, rfl⟩
    have hwhole := isWhole_decimal n
    have hall : (List.replicate zeros '0' ++ decimal n).all (isDigit 10) = true := by
      rw [List.all_append, Layout.all_isDigit_zeros, hwhole.digits]
      rfl
    have hvalue : read 10 (decimal n) = n := read_write (by decide) (by decide) n
    rw [List.append_assoc, parse?_append hall (by simp [hwhole.nonempty]) hsign, read_zeros_append,
      hvalue]

end Digits

end Autoscaling
