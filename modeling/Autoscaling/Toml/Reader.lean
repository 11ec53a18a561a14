import Autoscaling.Toml.Moment
import Autoscaling.Toml.Number
import Autoscaling.Toml.Text
import Autoscaling.Toml.Tree

/-!
# Reading configuration files

A document is read line by line: a line holds a value under a key, a header, or nothing, and may
end with a comment.  Lists may go over several lines, with comments in them; a table written as a
value stands on one line.

Each reader takes the characters that are left and answers with what it read and what is left
after it, or with `none` where the text is no document.  The number of characters of the document
is enough for the bounds that the readers take.  How deep values may be nested and how long keys
may be is a matter of `Limits`: a document beyond them is refused like one that is malformed.
-/

namespace Autoscaling

namespace Toml

/-- How deep and how long the parts of a document may be; a missing limit refuses nothing. -/
structure Limits where
  /-- how many lists and tables written as values may lie within one another -/
  nesting : Option Nat
  /-- how many names a key may have -/
  names : Option Nat
  deriving DecidableEq

namespace Limits

/-- The limits for configuration files. -/
def standard : Limits := ⟨some 79, some 79⟩

def unbounded : Limits := ⟨none, none⟩

/-- The limits inside of a list or table, if there may be one. -/
def inner? (limits : Limits) : Option Limits :=
  match limits.nesting with
  | none => some limits
  | some 0 => none
  | some (nesting + 1) => some { limits with nesting := some nesting }

/-- Whether a key may have so many names. -/
def allowsNames (limits : Limits) (count : Nat) : Bool :=
  match limits.names with
  | none => true
  | some most => count ≤ most

end Limits

/-! ## Keys -/

/-- Whether a character may stand in a key without quotes. -/
def isBareKeyChar (c : Char) : Bool := c.isAlphanum || c = '-' || c = '_'

/-- One name of a key. -/
def readName (fuel : Nat) (cs : List Char) : Option (String × List Char) :=
  match cs with
  | [] => none
  | c :: _ =>
      if isBareKeyChar c then
        let (name, rest) := cs.span isBareKeyChar
        some (String.ofList name, rest)
      else readLineText fuel cs

/-- The names of a key, separated by points: those before the last one, and the last one. -/
def readNames : Nat → List Char → Option ((List String × String) × List Char)
  | 0, _ => none
  | fuel + 1, cs => do
      let (name, rest) ← readName fuel (dropBlanks cs)
      match dropBlanks rest with
      | '.' :: rest => do
          let ((path, last), rest) ← readNames fuel rest
          some ((name :: path, last), rest)
      | rest => some (([], name), rest)

def readKey (limits : Limits) (fuel : Nat) (cs : List Char) :
    Option ((List String × String) × List Char) := do
  let ((path, last), rest) ← readNames fuel cs
  if limits.allowsNames (path.length + 1) then some ((path, last), rest) else none

/-! ## Values -/

/-- Drop blanks, line ends and comments; `inComment` tells whether a comment has begun. -/
def dropSpace (inComment : Bool) : List Char → List Char
  | [] => []
  | [c] =>
      if c = '\n' || isBlank c || inComment && isPlain c || !inComment && c = '#' then [] else [c]
  | c :: d :: rest =>
      if c = '\r' && d = '\n' then dropSpace false rest
      else if c = '\n' then dropSpace false (d :: rest)
      else if inComment then
        if isPlain c then dropSpace true (d :: rest) else c :: d :: rest
      else if isBlank c then dropSpace false (d :: rest)
      else if c = '#' then dropSpace true (d :: rest)
      else c :: d :: rest

def readWord (word : List Char) (value : Toml) (cs : List Char) : Option (Toml × List Char) :=
  if word.isPrefixOf cs then some (value, cs.drop word.length) else none

mutual

def readValue (limits : Limits) : Nat → List Char → Option (Toml × List Char)
  | 0, _ => none
  | fuel + 1, cs =>
      match cs with
      | [] => none
      | '[' :: rest => do
          let inner ← limits.inner?
          match dropSpace false rest with
          | ']' :: rest => some (.array [], rest)
          | rest => do
              let (items, rest) ← readItems inner fuel rest
              some (.array items, rest)
      | '\x7b' :: rest => do
          let inner ← limits.inner?
          match dropBlanks rest with
          | '\x7d' :: rest => some (.table [], rest)
          | rest => do
              let (pairs, rest) ← readPairs inner fuel rest
              let table ← ofPairs pairs
              some (table, rest)
      | 't' :: _ => readWord ['t', 'r', 'u', 'e'] (.bool true) cs
      | 'f' :: _ => readWord ['f', 'a', 'l', 's', 'e'] (.bool false) cs
      | c :: _ =>
          if c = '"' || c = '\'' then
            (readText fuel cs).map fun r => (.str r.1, r.2)
          else
            match readMoment cs with
            | some found => some found
            | none => readNumber cs

/-- The items of a list and the bracket that closes it.  A comma may follow the last item. -/
def readItems (limits : Limits) : Nat → List Char → Option (List Toml × List Char)
  | 0, _ => none
  | fuel + 1, cs => do
      let (item, rest) ← readValue limits fuel cs
      match dropSpace false rest with
      | ']' :: rest => some ([item], rest)
      | ',' :: rest =>
          match dropSpace false rest with
          | ']' :: rest => some ([item], rest)
          | rest => do
              let (items, rest) ← readItems limits fuel rest
              some (item :: items, rest)
      | _ => none

/-- The pairs of a table written as a value, and the brace that closes it. -/
def readPairs (limits : Limits) : Nat → List Char → Option (List Pair × List Char)
  | 0, _ => none
  | fuel + 1, cs => do
      let (pair, rest) ← readPair limits fuel cs
      match dropBlanks rest with
      | '\x7d' :: rest => some ([pair], rest)
      | ',' :: rest => do
          let (pairs, rest) ← readPairs limits fuel rest
          some (pair :: pairs, rest)
      | _ => none

/-- A key, an equals sign and a value. -/
def readPair (limits : Limits) : Nat → List Char → Option (Pair × List Char)
  | 0, _ => none
  | fuel + 1, cs => do
      let ((path, name), rest) ← readKey limits fuel cs
      match rest with
      | '=' :: rest => do
          let (value, rest) ← readValue limits fuel (dropBlanks rest)
          some (⟨path, name, value⟩, rest)
      | _ => none

end

/-! ## Lines -/

/-- The end of a line: blanks, a comment or none, and the end of the line or of the document. -/
def readTrailing (cs : List Char) : Option (List Char) :=
  let cs := match dropBlanks cs with
    | '#' :: rest => rest.dropWhile isPlain
    | cs => cs
  if cs.isEmpty then some [] else lineEnd? cs

/-- The header of an element of an array of tables, after its opening brackets. -/
def readElementHeader (limits : Limits) (fuel : Nat) (cs : List Char) :
    Option (Statement × List Char) := do
  let ((path, name), rest) ← readKey limits fuel cs
  match rest with
  | ']' :: ']' :: rest => some (.element path name, rest)
  | _ => none

/-- The header of a table, after its opening bracket. -/
def readTableHeader (limits : Limits) (fuel : Nat) (cs : List Char) :
    Option (Statement × List Char) := do
  let ((path, name), rest) ← readKey limits fuel cs
  match rest with
  | ']' :: rest => some (.table path name, rest)
  | _ => none

/-- What a line holds, if it is not blank. -/
def readStatement (limits : Limits) (fuel : Nat) (cs : List Char) :
    Option (Statement × List Char) :=
  match cs with
  | '[' :: '[' :: rest => readElementHeader limits fuel rest
  | '[' :: rest => readTableHeader limits fuel rest
  | _ => (readPair limits fuel cs).map fun r => (.pair r.1, r.2)

/-- Whether nothing but a comment can follow on the line. -/
def isLineOver : List Char → Bool
  | [] => true
  | c :: _ => c = '#' || c = '\n' || c = '\r'

def readLine (limits : Limits) (fuel : Nat) (cs : List Char) :
    Option (Option Statement × List Char) :=
  let cs := dropBlanks cs
  if isLineOver cs then do
    let rest ← readTrailing cs
    some (none, rest)
  else do
    let (statement, rest) ← readStatement limits fuel cs
    let rest ← readTrailing rest
    some (some statement, rest)

def readLines (limits : Limits) (bound : Nat) : Nat → List Char → Option (List Statement)
  | _, [] => some []
  | 0, _ => none
  | fuel + 1, cs => do
      let (statement, rest) ← readLine limits bound cs
      let statements ← readLines limits bound fuel rest
      some (statement.toList ++ statements)

/-- The mark of the order of bytes, which may stand in front of a document. -/
def orderMark : Char := '\ufeff'

/-- The characters of a document without a mark in front. -/
def documentChars (text : String) : List Char :=
  match text.toList with
  | c :: rest => if c = orderMark then rest else c :: rest
  | [] => []

/-- The fields of the document with this text, if it keeps to the limits. -/
def parse? (limits : Limits) (text : String) : Option (List (String × Toml)) := do
  let cs := documentChars text
  let bound := 2 * cs.length + 4
  let statements ← readLines limits bound bound cs
  ofStatements statements

end Toml

end Autoscaling
