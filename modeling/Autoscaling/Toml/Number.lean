import Autoscaling.Decimal.Nearest
import Autoscaling.Text.Digits
import Autoscaling.Toml.Value

/-!
# Numbers of configuration files

Integers fit a signed word of 64 bits.  They are decimal, without leading zeros and with a sign or
none, or hexadecimal, octal or binary with a mark in front.  A number with a fraction or an
exponent is a double.  Single underscores may stand between digits.

A decimal too great for a double is refused unless it is negative; then it is minus infinity.
-/

namespace Autoscaling

namespace Toml

/-- The rest of a run of digits after the first of them.  An underscore is left unless a digit
follows it. -/
def moreDigits (base : Nat) : List Char → List Char × List Char
  | [] => ([], [])
  | [d] => if Digits.isDigit base d then ([d], []) else ([], [d])
  | c :: d :: rest =>
      if c = '_' && Digits.isDigit base d then
        let (digits, rest) := moreDigits base rest
        (d :: digits, rest)
      else if Digits.isDigit base c then
        let (digits, rest) := moreDigits base (d :: rest)
        (c :: digits, rest)
      else ([], c :: d :: rest)

def digits? (base : Nat) : List Char → Option (List Char × List Char)
  | [] => none
  | d :: rest =>
      if Digits.isDigit base d then
        let (digits, rest) := moreDigits base rest
        some (d :: digits, rest)
      else none

/-- A run of decimal digits without leading zeros.  After a zero the run ends. -/
def whole? : List Char → Option (List Char × List Char)
  | '0' :: rest => some (['0'], rest)
  | cs => digits? 10 cs

/-- A sign, if there is one: whether it is a minus sign. -/
def sign : List Char → Bool × List Char
  | '+' :: rest => (false, rest)
  | '-' :: rest => (true, rest)
  | cs => (false, cs)

/-- A fraction, if there is one. -/
def fraction? : List Char → Option (Option (List Char) × List Char)
  | '.' :: rest => do
      let (digits, rest) ← digits? 10 rest
      some (some digits, rest)
  | cs => some (none, cs)

/-- An exponent, if there is one. -/
def exponent? : List Char → Option (Option Int × List Char)
  | [] => some (none, [])
  | c :: rest =>
      if c = 'e' || c = 'E' then do
        let (negative, rest) := sign rest
        let (digits, rest) ← digits? 10 rest
        let n : Int := Digits.read 10 digits
        some (some (if negative then -n else n), rest)
      else some (none, c :: rest)

/-- An integer as a value, unless it is out of range. -/
def integer? (n : Int) : Option Toml :=
  if -9223372036854775808 ≤ n ∧ n < 9223372036854775808 then some (.int (Int64.ofInt n)) else none

/-- An integer in a base other than ten. -/
def readBased (base : Nat) (cs : List Char) : Option (Toml × List Char) := do
  let (digits, rest) ← digits? base cs
  let n ← integer? (Digits.read base digits)
  some (n, rest)

def notANumber : Float := 0.0 / 0.0

def infinity (negative : Bool) : Float := if negative then -1.0 / 0.0 else 1.0 / 0.0

/-- A decimal number after its sign. -/
def readDecimal (negative : Bool) (cs : List Char) : Option (Toml × List Char) := do
  let (whole, cs) ← whole? cs
  let (fraction, cs) ← fraction? cs
  let (exponent, cs) ← exponent? cs
  if fraction.isNone && exponent.isNone then
    let n : Int := Digits.read 10 whole
    let n ← integer? (if negative then -n else n)
    some (n, cs)
  else
    let places := fraction.getD []
    let x := nearest negative (Digits.read 10 (whole ++ places))
      (exponent.getD 0 - (places.length : Int))
    if x.isInf && !negative then none else some (.float x, cs)

def readNumber (cs : List Char) : Option (Toml × List Char) :=
  match cs with
  | '0' :: 'x' :: rest => readBased 16 rest
  | '0' :: 'o' :: rest => readBased 8 rest
  | '0' :: 'b' :: rest => readBased 2 rest
  | _ =>
      let (negative, rest) := sign cs
      match rest with
      | 'i' :: 'n' :: 'f' :: rest => some (.float (infinity negative), rest)
      | 'n' :: 'a' :: 'n' :: rest => some (.float notANumber, rest)
      | _ => readDecimal negative rest

end Toml

end Autoscaling
