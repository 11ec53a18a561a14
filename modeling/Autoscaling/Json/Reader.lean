import Autoscaling.Decimal.Nearest
import Autoscaling.Json.Value
import Autoscaling.Text.Digits

/-!
# Reading JSON text

A reader takes the characters that are left and answers with what it read and what is left after
it, or with `none` where the text is not JSON.  A number is an integer when it is written without
point and exponent and fits 64 bits; `-0` and every other number is a floating-point number.

Lists and objects may be nested to a limit, and a text beyond it is refused like one that is
malformed.  The number of characters of the text is enough for the other bound of the readers.
-/

namespace Autoscaling

namespace Json

def dropBlanks (cs : List Char) : List Char :=
  cs.dropWhile fun c => c = ' ' || c = '\t' || c = '\n' || c = '\r'

/-- The unit of 16 bits that four hexadecimal digits stand for. -/
def unit? (digits : List Char) : Option Nat :=
  if digits.all (Digits.isDigit 16) then some (Digits.read 16 digits) else none

/-- The character that a letter stands for after a backslash. -/
def escaped? : Char → Option Char
  | '"' => some '"'
  | '\\' => some '\\'
  | '/' => some '/'
  | 'b' => some '\x08'
  | 'f' => some '\x0c'
  | 'n' => some '\n'
  | 'r' => some '\r'
  | 't' => some '\t'
  | _ => none

/-- Read the rest of a string after its opening quote; `seen` holds what was read of it, last
character first.  A character beyond 16 bits is escaped as two units. -/
def readString (seen : List Char) : List Char → Option (String × List Char)
  | [] => none
  | '"' :: rest => some (String.ofList seen.reverse, rest)
  | '\\' :: 'u' :: a :: b :: c :: d :: rest =>
      match unit? [a, b, c, d] with
      | none => none
      | some high =>
          if 0xd800 ≤ high ∧ high < 0xdc00 then
            match rest with
            | '\\' :: 'u' :: a :: b :: c :: d :: rest =>
                match unit? [a, b, c, d] with
                | none => none
                | some low =>
                    if 0xdc00 ≤ low ∧ low < 0xe000 then
                      let code := 0x10000 + (high - 0xd800) * 0x400 + (low - 0xdc00)
                      readString (Char.ofNat code :: seen) rest
                    else none
            | _ => none
          else if 0xdc00 ≤ high ∧ high < 0xe000 then none
          else readString (Char.ofNat high :: seen) rest
  | '\\' :: c :: rest =>
      match escaped? c with
      | some c => readString (c :: seen) rest
      | none => none
  | c :: rest => if c.toNat < 32 then none else readString (c :: seen) rest

/-- Split off a run of decimal digits. -/
def spanDigits (cs : List Char) : List Char × List Char := cs.span (Digits.isDigit 10)

/-- Read the digits before the point: no leading zero unless it is the only digit. -/
def readWhole (cs : List Char) : Option (List Char × List Char) :=
  match cs with
  | '0' :: rest => some (['0'], rest)
  | _ => let (digits, rest) := spanDigits cs; if digits.isEmpty then none else some (digits, rest)

/-- Read a point and the digits after it, if there is one. -/
def readFraction (cs : List Char) : Option (List Char × List Char) :=
  match cs with
  | '.' :: rest =>
      let (digits, rest) := spanDigits rest
      if digits.isEmpty then none else some (digits, rest)
  | _ => some ([], cs)

/-- Read an exponent, if there is one. -/
def readExponent (cs : List Char) : Option (Option Int × List Char) :=
  let signed (negative : Bool) (cs : List Char) : Option (Option Int × List Char) :=
    let (digits, rest) := spanDigits cs
    if digits.isEmpty then none
    else
      let n : Int := Digits.read 10 digits
      some (some (if negative then -n else n), rest)
  match cs with
  | c :: rest =>
      if c = 'e' || c = 'E' then
        match rest with
        | '+' :: rest => signed false rest
        | '-' :: rest => signed true rest
        | _ => signed false rest
      else some (none, cs)
  | [] => some (none, cs)

/-- Split off a minus sign. -/
def readSign : List Char → Bool × List Char
  | '-' :: rest => (true, rest)
  | cs => (false, cs)

/-- The number of some digits before and behind the point and an exponent: an integer if there is
nothing but a whole number and it fits. -/
def number? (negative : Bool) (whole fraction : List Char) (exponent : Option Int) : Option Json :=
  let digits := Digits.read 10 (whole ++ fraction)
  let value := if negative then -(digits : Int) else digits
  let plain := fraction.isEmpty && exponent.isNone && !(negative && digits = 0)
  match (if plain then JsonInt.ofInt? value else none) with
  | some n => some (.int n)
  | none => do
      let x ← FiniteFloat.ofFloat?
        (nearest negative digits (exponent.getD 0 - (fraction.length : Int)))
      some (.float x)

def readNumber (cs : List Char) : Option (Json × List Char) := do
  let (negative, cs) := readSign cs
  let (whole, cs) ← readWhole cs
  let (fraction, cs) ← readFraction cs
  let (exponent, cs) ← readExponent cs
  let value ← number? negative whole fraction exponent
  some (value, cs)

/-- Read a fixed word. -/
def readWord (word : List Char) (value : Json) (cs : List Char) : Option (Json × List Char) :=
  if word.isPrefixOf cs then some (value, cs.drop word.length) else none

/-- The nesting that is left inside of a list or object, if there may be one. -/
def inner? : Nat → Option Nat
  | 0 => none
  | nesting + 1 => some nesting

mutual

/-- Read a value that stands at the head of the text, with at most so many lists and objects within
one another. -/
def readValue (nesting : Nat) : Nat → List Char → Option (Json × List Char)
  | 0, _ => none
  | fuel + 1, cs =>
      match cs with
      | '"' :: rest => do
          let (s, rest) ← readString [] rest
          some (.str s, rest)
      | '[' :: rest => do
          let inner ← inner? nesting
          match dropBlanks rest with
          | ']' :: rest => some (.arr [], rest)
          | rest => do
              let (items, rest) ← readItems inner fuel rest
              some (.arr items, rest)
      | '\x7b' :: rest => do
          let inner ← inner? nesting
          match dropBlanks rest with
          | '\x7d' :: rest => some (.obj [], rest)
          | rest => do
              let (fields, rest) ← readFields inner fuel rest
              some (.obj fields, rest)
      | 'n' :: _ => readWord ['n', 'u', 'l', 'l'] .null cs
      | 't' :: _ => readWord ['t', 'r', 'u', 'e'] (.bool true) cs
      | 'f' :: _ => readWord ['f', 'a', 'l', 's', 'e'] (.bool false) cs
      | _ => readNumber cs

/-- Read the items of a list and the bracket that closes it. -/
def readItems (nesting : Nat) : Nat → List Char → Option (List Json × List Char)
  | 0, _ => none
  | fuel + 1, cs => do
      let (item, rest) ← readValue nesting fuel cs
      match dropBlanks rest with
      | ']' :: rest => some ([item], rest)
      | ',' :: rest => do
          let (items, rest) ← readItems nesting fuel (dropBlanks rest)
          some (item :: items, rest)
      | _ => none

/-- Read the fields of an object and the brace that closes it. -/
def readFields (nesting : Nat) : Nat → List Char → Option (List (String × Json) × List Char)
  | 0, _ => none
  | fuel + 1, cs => do
      match cs with
      | '"' :: rest => do
          let (name, rest) ← readString [] rest
          match dropBlanks rest with
          | ':' :: rest => do
              let (value, rest) ← readValue nesting fuel (dropBlanks rest)
              match dropBlanks rest with
              | '\x7d' :: rest => some ([(name, value)], rest)
              | ',' :: rest => do
                  let (fields, rest) ← readFields nesting fuel (dropBlanks rest)
                  some ((name, value) :: fields, rest)
              | _ => none
          | _ => none
      | _ => none

end

/-- How deep lists and objects may be nested in a text. -/
def nestingLimit : Nat := 127

/-- Read a text that is one value, in canonical form. -/
def parse? (text : String) : Option Json :=
  let cs := dropBlanks text.toList
  match readValue nestingLimit (2 * cs.length + 1) cs with
  | some (value, rest) => if (dropBlanks rest).isEmpty then some value.canonical else none
  | none => none

end Json

end Autoscaling
