/-!
# Nearest doubles

The double nearest to a decimal.  For decimals far beyond the greatest double, or far below the
least one, the place of the first digit decides, and no power of ten is computed.
-/

namespace Autoscaling

/-- A place of the first digit beyond that of every finite double. -/
def beyondDoubles : Int := 310

/-- A place of the first digit below which every number is nearest to zero. -/
def belowDoubles : Int := -330

/-- The number of decimal digits of a positive number, or one less. -/
def digitBound (n : Nat) : Nat := n.log2 * 30103 / 100000 + 1

/-- The double nearest to `digits * 10 ^ exponent`, with a sign. -/
def nearest (negative : Bool) (digits : Nat) (exponent : Int) : Float :=
  let size :=
    if digits = 0 then 0.0
    else if beyondDoubles < exponent + digitBound digits - 1 then 1.0 / 0.0
    else if exponent + digitBound digits + 1 < belowDoubles then 0.0
    else Float.ofScientific digits (exponent < 0) exponent.natAbs
  if negative then -size else size

end Autoscaling
