/-!
# Numerals

Natural numbers as runs of digits in a base up to sixteen, most significant digit first.  Reading
is the fold of the digits' values, so it accepts leading zeros; writing never produces one.  What was
written is read back (`Digits.read_write`, `Digits.parse?_decimal`).
-/

namespace Autoscaling

namespace Digits

/-- The digit of a value below sixteen; letters are lower case. -/
def char (d : Nat) : Char :=
  if d < 10 then Char.ofNat ('0'.toNat + d) else Char.ofNat ('a'.toNat + (d - 10))

/-- The value of a digit in base sixteen or less, either case of a letter. -/
def value? (c : Char) : Option Nat :=
  if '0' ≤ c ∧ c ≤ '9' then some (c.toNat - '0'.toNat)
  else if 'a' ≤ c ∧ c ≤ 'f' then some (c.toNat - 'a'.toNat + 10)
  else if 'A' ≤ c ∧ c ≤ 'F' then some (c.toNat - 'A'.toNat + 10)
  else none

def isDigit (base : Nat) (c : Char) : Bool :=
  match value? c with
  | some d => d < base
  | none => false

/-- The value of a run of digits. -/
def read (base : Nat) (cs : List Char) : Nat :=
  cs.foldl (fun n c => base * n + (value? c).getD 0) 0

/-- Write `n` in front of `tail`; `fuel` bounds the number of digits. -/
def writeOnto (base : Nat) : Nat → Nat → List Char → List Char
  | 0, _, tail => tail
  | fuel + 1, n, tail =>
      let tail := char (n % base) :: tail
      if n < base then tail else writeOnto base fuel (n / base) tail

/-- The digits of `n` in a base of at least two. -/
def write (base n : Nat) : List Char := writeOnto base (n + 1) n []

def decimal (n : Nat) : List Char := write 10 n

/-- At least `width` digits: zeros stand in front of a shorter numeral. -/
def padded (base width n : Nat) : List Char :=
  let digits := write base n
  List.replicate (width - digits.length) '0' ++ digits

/-- The number that a decimal numeral stands for: digits, after a plus sign or none. -/
def parse? (cs : List Char) : Option Nat :=
  let digits := match cs with
    | '+' :: rest => rest
    | _ => cs
  if !digits.isEmpty && digits.all (isDigit 10) then some (read 10 digits) else none

/-! ## Reading what was written -/

/-- A digit has the value that it was written for. -/
theorem value?_char : ∀ d < 16, value? (char d) = some d := by decide

theorem foldl_writeOnto {base : Nat} (two_le : 2 ≤ base) (le_sixteen : base ≤ 16) (fuel n : Nat)
    (tail : List Char) (enough : n < fuel) :
    (writeOnto base fuel n tail).foldl (fun n c => base * n + (value? c).getD 0) 0 =
      tail.foldl (fun n c => base * n + (value? c).getD 0) n := by
  induction fuel generalizing n tail with
  | zero => omega
  | succ fuel ih =>
      have hdigit : value? (char (n % base)) = some (n % base) :=
        value?_char _ (Nat.lt_of_lt_of_le (Nat.mod_lt n (by omega)) le_sixteen)
      rw [writeOnto]
      split
      · rename_i small
        rw [List.foldl_cons, hdigit, Nat.mod_eq_of_lt small, Option.getD_some, Nat.mul_zero,
          Nat.zero_add]
      · have smaller : n / base < n := Nat.div_lt_self (by omega) two_le
        rw [ih _ _ (by omega), List.foldl_cons, hdigit, Option.getD_some, Nat.div_add_mod]

/-- A numeral stands for the number that it was written for. -/
theorem read_write {base : Nat} (two_le : 2 ≤ base) (le_sixteen : base ≤ 16) (n : Nat) :
    read base (write base n) = n :=
  foldl_writeOnto two_le le_sixteen (n + 1) n [] n.lt_succ_self

theorem isDigit_char {base : Nat} (le_sixteen : base ≤ 16) {d : Nat} (below : d < base) :
    isDigit base (char d) = true := by
  rw [isDigit, value?_char d (Nat.lt_of_lt_of_le below le_sixteen)]
  exact decide_eq_true below

/-- A numeral has digits only. -/
theorem all_isDigit_writeOnto {base : Nat} (two_le : 2 ≤ base) (le_sixteen : base ≤ 16)
    (fuel n : Nat) (tail : List Char) (digits : tail.all (isDigit base) = true) :
    (writeOnto base fuel n tail).all (isDigit base) = true := by
  induction fuel generalizing n tail with
  | zero => exact digits
  | succ fuel ih =>
      have hdigit : isDigit base (char (n % base)) = true :=
        isDigit_char le_sixteen (Nat.mod_lt n (by omega))
      have more : (char (n % base) :: tail).all (isDigit base) = true := by
        rw [List.all_cons, hdigit, digits]
        rfl
      rw [writeOnto]
      split
      · exact more
      · exact ih _ _ more

theorem all_isDigit_write {base : Nat} (two_le : 2 ≤ base) (le_sixteen : base ≤ 16) (n : Nat) :
    (write base n).all (isDigit base) = true :=
  all_isDigit_writeOnto two_le le_sixteen (n + 1) n [] rfl

theorem writeOnto_ne_nil (base fuel n : Nat) {tail : List Char} (h : tail ≠ []) :
    writeOnto base fuel n tail ≠ [] := by
  induction fuel generalizing n tail with
  | zero => exact h
  | succ fuel ih =>
      rw [writeOnto]
      split
      · exact List.cons_ne_nil _ _
      · exact ih _ (List.cons_ne_nil _ _)

theorem write_ne_nil (base n : Nat) : write base n ≠ [] := by
  rw [write, writeOnto]
  split
  · exact List.cons_ne_nil _ _
  · exact writeOnto_ne_nil _ _ _ (List.cons_ne_nil _ _)

/-- A decimal numeral is read back. -/
theorem parse?_decimal (n : Nat) : parse? (decimal n) = some n := by
  have digits := all_isDigit_write (by decide) (by decide : 10 ≤ 16) n
  have hread := read_write (by decide) (by decide : 10 ≤ 16) n
  rw [decimal]
  cases hcs : write 10 n with
  | nil => exact absurd hcs (write_ne_nil 10 n)
  | cons c rest =>
      rw [hcs] at digits hread
      have hplus : c ≠ '+' := by
        rintro rfl
        exact absurd digits (by simp [isDigit, value?])
      simp [parse?, hplus, digits, hread]

end Digits

/-- The decimal numeral of a natural number. -/
def natText (n : Nat) : String := String.ofList (Digits.decimal n)

/-- The decimal numeral of an integer, with a minus sign below zero. -/
def intText (n : Int) : String :=
  if n < 0 then "-" ++ natText n.natAbs else natText n.natAbs

end Autoscaling
