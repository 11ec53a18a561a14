/-!
# Shortest decimals

Every finite double is written with the fewest decimal digits that read back as the same double,
and with the nearest such decimal when several have as few.

The reals that read as a given double form an interval around it: half the gap to the next
double on either side, the ends included exactly when the mantissa is even.  The search goes
through the grids of multiples of a power of ten, coarsest first, and tests the two multiples next
to the double.  All arithmetic is on natural numbers.
-/

namespace Autoscaling

/-- The decimal number `digits * 10 ^ exponent`. -/
structure Decimal where
  digits : Nat
  exponent : Int
  deriving DecidableEq, Repr, Inhabited

/-- Which of two equally near decimals is written. -/
inductive Tie where
  /-- the one whose last digit is even -/
  | even
  /-- the greater one -/
  | up
  deriving DecidableEq, Repr

/-- The size `mantissa * 2 ^ exponent` of a finite double. -/
structure Magnitude where
  mantissa : Nat
  exponent : Int
  deriving DecidableEq, Repr

namespace Magnitude

/-- The least exponent of a double. -/
def leastExponent : Int := -1074

/-- The first bit of a mantissa, `2 ^ 52`, which is not among the bits of a double. -/
def leadingBit : Nat := 4503599627370496

/-- The size of a finite double, read off its bits: a fraction of 52 bits under an exponent of
eleven. -/
def ofFloat (x : Float) : Magnitude :=
  let bits := x.toBits.toNat
  -- the exponent zero stands for the doubles whose leading bit is not implied
  let field : Nat := bits / leadingBit % 2048
  let fraction := bits % leadingBit
  if field = 0 then ⟨fraction, leastExponent⟩ else ⟨leadingBit + fraction, (field : Int) - 1075⟩

/-- Whether the bits of a double have a minus sign. -/
def isNegative (x : Float) : Bool := x.toBits.toNat / (2048 * leadingBit) == 1

/-- In quarters of the last place: how far below the number its interval reaches. -/
def quartersBelow (v : Magnitude) : Nat :=
  -- below a power of two the next double is only half as far away
  if v.mantissa = leadingBit ∧ leastExponent < v.exponent then 1 else 2

/-- Whether `k / den` lies in the interval of a number whose quarters of the last place are
`num / den` each. -/
def covers (v : Magnitude) (num den k : Nat) : Bool :=
  let low := (4 * v.mantissa - v.quartersBelow) * num
  let high := (4 * v.mantissa + 2) * num
  if v.mantissa % 2 = 0 then low ≤ k * den && k * den ≤ high
  else low < k * den && k * den < high

/-- The multiple of `10 ^ e` that is written for the number, if one reads back as it. -/
def onGrid? (tie : Tie) (v : Magnitude) (e : Int) : Option Nat :=
  let quarter := v.exponent - 2
  let num := Nat.pow 2 quarter.toNat * Nat.pow 10 (-e).toNat
  let den := Nat.pow 2 (-quarter).toNat * Nat.pow 10 e.toNat
  let value := 4 * v.mantissa * num
  let k := value / den
  -- only the two multiples next to the number can be the nearest
  let below := k != 0 && v.covers num den k
  let above := v.covers num den (k + 1)
  if below && above then
    let rest := 2 * (value % den)
    if rest < den then some k
    else if den < rest then some (k + 1)
    else match tie with
      | .even => some (k + k % 2)
      | .up => some (k + 1)
  else if below then some k
  else if above then some (k + 1)
  else none

/-- Search `fuel` grids, from `10 ^ e` on to finer ones. -/
def search (tie : Tie) (v : Magnitude) : Nat → Int → Decimal
  | 0, e => ⟨0, e⟩
  | fuel + 1, e =>
      match v.onGrid? tie e with
      | some k => ⟨k, e⟩
      | none => search tie v fuel (e - 1)

/-- An exponent of ten that no multiple of can be needed for the number: a little more than the
number of its bits times the logarithm of two. -/
def coarsest (v : Magnitude) : Int :=
  ((v.mantissa.log2 : Int) + 1 + v.exponent) * 30103 / 100000 + 2

def shortest (tie : Tie) (v : Magnitude) : Decimal :=
  if v.mantissa = 0 then ⟨0, 0⟩ else search tie v 40 v.coarsest

end Magnitude

def Decimal.ofFloat (tie : Tie) (x : Float) : Decimal := (Magnitude.ofFloat x).shortest tie

end Autoscaling
