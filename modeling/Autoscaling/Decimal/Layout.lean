import Autoscaling.Decimal.Shortest
import Autoscaling.Text.Digits

/-!
# Layouts of decimals

A layout says which decimals are written out in full, what stands for an exponent otherwise, and
whether a whole number keeps a fraction of zero.  The layouts in use are three: that of numbers in
JSON text, that of numbers in a configuration file, and that of numbers in messages.
-/

namespace Autoscaling

/-- How a double is written. -/
structure Layout where
  /-- which of two equally near decimals is written -/
  tie : Tie
  /-- the least and the greatest power of ten of a first digit that is written out in full; no
  bounds: every number is -/
  plain : Option (Int × Int)
  /-- whether `.0` follows a whole number -/
  keepsPoint : Bool
  /-- the word for what is not a number -/
  notANumber : String

namespace Layout

/-- Digits with the point after the first `before` of them; zeros fill up on either side. -/
def positional (layout : Layout) (digits : List Char) (before : Int) : List Char :=
  let whole :=
    if before ≤ 0 then ['0']
    else (digits.take before.toNat) ++ List.replicate (before.toNat - digits.length) '0'
  let fraction :=
    if before ≤ 0 then List.replicate (-before).toNat '0' ++ digits
    else digits.drop before.toNat
  if fraction.isEmpty then
    if layout.keepsPoint then whole ++ ['.', '0'] else whole
  else whole ++ '.' :: fraction

/-- One digit, the point and the rest, then the power of ten with its sign. -/
def scientific (digits : List Char) (power : Int) : List Char :=
  let mantissa := match digits with
    | first :: second :: rest => first :: '.' :: second :: rest
    | short => short
  mantissa ++ 'e' :: (if power < 0 then '-' else '+') :: Digits.decimal power.natAbs

/-- A decimal in a layout. -/
def writeDecimal (layout : Layout) (d : Decimal) : List Char :=
  if d.digits = 0 then layout.positional ['0'] 1
  else
    let digits := Digits.decimal d.digits
    let before : Int := digits.length + d.exponent
    match layout.plain with
    | none => layout.positional digits before
    | some (least, greatest) =>
        if least ≤ before - 1 && before - 1 ≤ greatest then layout.positional digits before
        else scientific digits (before - 1)

/-- A double in a layout: the sign, also that of zero, and the shortest decimal of its size. -/
def write (layout : Layout) (x : Float) : String :=
  let sign := if Magnitude.isNegative x then "-" else ""
  if x.isNaN then layout.notANumber
  else if x.isInf then sign ++ "inf"
  else sign ++ String.ofList (layout.writeDecimal (Decimal.ofFloat layout.tie x))

/-- Numbers in JSON text: in full from `0.00001` up to sixteen digits before the point, always
with a point or an exponent. -/
def json : Layout := ⟨.even, some (-5, 15), true, "null"⟩

/-- Numbers in a configuration file: always in full and with a point. -/
def file : Layout := ⟨.up, none, true, "nan"⟩

/-- Numbers in messages: always in full, a whole number without a point. -/
def message : Layout := ⟨.up, none, false, "NaN"⟩

end Layout

end Autoscaling
