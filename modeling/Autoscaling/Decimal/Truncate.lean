import Autoscaling.Decimal.Shortest

/-!
# Whole parts

The whole part of a double as a signed word of 64 bits: the fraction is cut off toward zero, a
number beyond the range counts as the end of the range, and what is no number counts as zero.
-/

namespace Autoscaling

/-- The whole part of a size. -/
def Magnitude.whole (v : Magnitude) : Nat :=
  v.mantissa * Nat.pow 2 v.exponent.toNat / Nat.pow 2 (-v.exponent).toNat

/-- The integer nearest to `n` in the range of a signed word of 64 bits. -/
def clampInt64 (n : Int) : Int64 :=
  Int64.ofInt (max (-9223372036854775808) (min n 9223372036854775807))

/-- The whole part of a double.  An infinite one has the bits of a size beyond the range. -/
def truncate (x : Float) : Int64 :=
  if x.isNaN then 0
  else
    let size : Int := (Magnitude.ofFloat x).whole
    clampInt64 (if Magnitude.isNegative x then -size else size)

end Autoscaling
