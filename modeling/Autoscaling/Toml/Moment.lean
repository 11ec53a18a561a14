import Autoscaling.Text.Digits
import Autoscaling.Toml.Value

/-!
# Points of time

A date, a time of day, or a date with a time and perhaps an offset from universal time.  Each has a
normal text: a `T` between date and time, a `Z` for universal time, and a fraction of a second of at
most nine digits without zeros at its end.
-/

namespace Autoscaling

namespace Toml

/-- The number of exactly so many digits. -/
def fixed? (width : Nat) (cs : List Char) : Option (Nat × List Char) :=
  let digits := cs.take width
  if digits.length = width && digits.all (Digits.isDigit 10) then
    some (Digits.read 10 digits, cs.drop width)
  else none

/-- The number of exactly so many digits, within bounds. -/
def within? (width least greatest : Nat) (cs : List Char) : Option (Nat × List Char) := do
  let (n, rest) ← fixed? width cs
  if least ≤ n && n ≤ greatest then some (n, rest) else none

/-- Pass over a character. -/
def mark? (c : Char) : List Char → Option (List Char)
  | d :: rest => if d = c then some rest else none
  | [] => none

/-- Whether the year has a day more in February. -/
def isLeap (year : Nat) : Bool := year % 4 = 0 && (year % 100 != 0 || year % 400 = 0)

/-- How many days a month has. -/
def daysOf (year month : Nat) : Nat :=
  if month = 2 then (if isLeap year then 29 else 28)
  else if month = 4 || month = 6 || month = 9 || month = 11 then 30
  else 31

/-- A date and its normal text. -/
def date? (cs : List Char) : Option (List Char × List Char) := do
  let (year, cs) ← fixed? 4 cs
  let cs ← mark? '-' cs
  let (month, cs) ← within? 2 1 12 cs
  let cs ← mark? '-' cs
  let (day, cs) ← within? 2 1 (daysOf year month) cs
  some (Digits.padded 10 4 year ++ '-' :: Digits.padded 10 2 month ++ '-' :: Digits.padded 10 2 day,
    cs)

/-- The normal text of a fraction of a second, with its point. -/
def secondFraction (digits : List Char) : List Char :=
  let kept := ((digits.take 9).reverse.dropWhile (· == '0')).reverse
  if kept.isEmpty then [] else '.' :: kept

/-- A fraction of a second, if there is one. -/
def secondFraction? : List Char → Option (List Char × List Char)
  | '.' :: rest =>
      let (digits, rest) := rest.span (Digits.isDigit 10)
      if digits.isEmpty then none else some (secondFraction digits, rest)
  | cs => some ([], cs)

/-- A time of day and its normal text.  A minute may have an additional second. -/
def time? (cs : List Char) : Option (List Char × List Char) := do
  let (hour, cs) ← within? 2 0 23 cs
  let cs ← mark? ':' cs
  let (minute, cs) ← within? 2 0 59 cs
  let cs ← mark? ':' cs
  let (second, cs) ← within? 2 0 60 cs
  let (fraction, cs) ← secondFraction? cs
  some (Digits.padded 10 2 hour ++ ':' :: Digits.padded 10 2 minute ++
    ':' :: Digits.padded 10 2 second ++ fraction, cs)

/-- An offset in hours and minutes and its normal text.  No offset is an offset forward. -/
def offsetBy? (sign : Char) (cs : List Char) : Option (List Char × List Char) := do
  let (hours, cs) ← within? 2 0 23 cs
  let cs ← mark? ':' cs
  let (minutes, cs) ← within? 2 0 59 cs
  let sign := if hours = 0 && minutes = 0 then '+' else sign
  some (sign :: Digits.padded 10 2 hours ++ ':' :: Digits.padded 10 2 minutes, cs)

/-- An offset from universal time, if there is one. -/
def offset? : List Char → Option (List Char × List Char)
  | [] => some ([], [])
  | c :: rest =>
      if c = 'Z' || c = 'z' then some (['Z'], rest)
      else if c = '+' || c = '-' then offsetBy? c rest
      else some ([], c :: rest)

/-- A time and an offset after a date.  A blank that no time follows is not part of the value. -/
def timeAfterDate? (date cs : List Char) : Option (List Char × List Char) :=
  match cs with
  | [] => some (date, [])
  | c :: rest =>
      if c = 'T' || c = 't' || c = ' ' then
        match time? rest with
        | some (time, rest) => do
            let (offset, rest) ← offset? rest
            some (date ++ 'T' :: time ++ offset, rest)
        | none => some (date, cs)
      else some (date, cs)

/-- A point of time. -/
def readMoment (cs : List Char) : Option (Toml × List Char) :=
  let read := match date? cs with
    | some (date, rest) => timeAfterDate? date rest
    | none => time? cs
  read.map fun r => (.moment (String.ofList r.1), r.2)

end Toml

end Autoscaling
