import Autoscaling.Text.Digits
import Autoscaling.Toml.Value

/-!
# Texts of configuration files

A text stands between double quotes or between single quotes, one of them or three.  Between double
quotes a backslash begins an escape; between single quotes every character stands for itself.
Between three quotes the text may have several lines: a line end directly after the opening quotes
is left out, and up to two quotes may stand together inside and before the closing ones.  A
backslash at the end of a line leaves out all blanks and line ends up to the next character.

The readers of texts take a bound on the number of pieces that a text has, which the number of
characters of the document is enough for.
-/

namespace Autoscaling

namespace Toml

/-- A blank within a line. -/
def isBlank (c : Char) : Bool := c = ' ' || c = '\t'

/-- Whether a character may stand for itself in a text or a comment: control characters other than
the tabulator may not. -/
def isPlain (c : Char) : Bool := c = '\t' || (32 ≤ c.toNat && c.toNat != 127)

/-- Drop the blanks at the head of a line. -/
def dropBlanks (cs : List Char) : List Char := cs.dropWhile isBlank

/-- A line end. -/
def lineEnd? : List Char → Option (List Char)
  | '\n' :: rest => some rest
  | '\r' :: '\n' :: rest => some rest
  | _ => none

/-- Drop blanks and line ends. -/
def dropLines : List Char → List Char
  | [] => []
  | [c] => if isBlank c || c = '\n' then [] else [c]
  | c :: d :: rest =>
      if isBlank c || c = '\n' then dropLines (d :: rest)
      else if c = '\r' && d = '\n' then dropLines rest
      else c :: d :: rest

/-- The character of a code point that is written with exactly so many hexadecimal digits. -/
def codePoint? (width : Nat) (cs : List Char) : Option (List Char × List Char) :=
  let digits := cs.take width
  let code := Digits.read 16 digits
  if digits.length = width && digits.all (Digits.isDigit 16) && code.isValidChar then
    some ([Char.ofNat code], cs.drop width)
  else none

/-- The character of an escape, after the backslash. -/
def escape? : List Char → Option (List Char × List Char)
  | 'b' :: rest => some (['\x08'], rest)
  | 't' :: rest => some (['\t'], rest)
  | 'n' :: rest => some (['\n'], rest)
  | 'f' :: rest => some (['\x0c'], rest)
  | 'r' :: rest => some (['\r'], rest)
  | '"' :: rest => some (['"'], rest)
  | '\\' :: rest => some (['\\'], rest)
  | 'u' :: rest => codePoint? 4 rest
  | 'U' :: rest => codePoint? 8 rest
  | _ => none

/-- How a text is written. -/
structure Quotes where
  quote : Char
  /-- whether three quotes enclose the text, on several lines -/
  multi : Bool
  deriving DecidableEq

namespace Quotes

/-- Whether a backslash begins an escape. -/
def escapes (q : Quotes) : Bool := q.quote = '"'

/-- The next piece of a text: a character, an escape, a line end, or the end of a line that is
left out together with the blanks after it. -/
def piece? (q : Quotes) : List Char → Option (List Char × List Char)
  | [] => none
  | c :: rest =>
      if c = '\\' && q.escapes then
        if q.multi then
          match lineEnd? (dropBlanks rest) with
          | some next => some ([], dropLines next)
          | none => escape? rest
        else escape? rest
      else if isPlain c then some ([c], rest)
      else if q.multi then (lineEnd? (c :: rest)).map fun next => (['\n'], next)
      else none

/-- What follows the closing quotes, and the quotes in front of them that are part of the text, if
the text ends here. -/
def closing? (q : Quotes) (cs : List Char) : Option (List Char × List Char) :=
  let run := (cs.takeWhile (· == q.quote)).length
  if q.multi then
    if run < 3 then none
    else
      let inside := min (run - 3) 2
      some (List.replicate inside q.quote, cs.drop (inside + 3))
  else if run = 0 then none
  else some ([], cs.drop 1)

/-- The rest of a text after its opening quotes; `seen` holds what was read of it, last character
first. -/
def readRest (q : Quotes) : Nat → List Char → List Char → Option (String × List Char)
  | 0, _, _ => none
  | fuel + 1, seen, cs =>
      match q.closing? cs with
      | some (inside, rest) => some (String.ofList (seen.reverse ++ inside), rest)
      | none =>
          match q.piece? cs with
          | some (piece, rest) => readRest q fuel (piece.reverse ++ seen) rest
          | none => none

end Quotes

def readLineText (fuel : Nat) (cs : List Char) : Option (String × List Char) :=
  match cs with
  | '"' :: rest => Quotes.readRest ⟨'"', false⟩ fuel [] rest
  | '\'' :: rest => Quotes.readRest ⟨'\'', false⟩ fuel [] rest
  | _ => none

def readText (fuel : Nat) (cs : List Char) : Option (String × List Char) :=
  match cs with
  | '"' :: '"' :: '"' :: rest =>
      Quotes.readRest ⟨'"', true⟩ fuel [] ((lineEnd? rest).getD rest)
  | '\'' :: '\'' :: '\'' :: rest =>
      Quotes.readRest ⟨'\'', true⟩ fuel [] ((lineEnd? rest).getD rest)
  | _ => readLineText fuel cs

end Toml

end Autoscaling
