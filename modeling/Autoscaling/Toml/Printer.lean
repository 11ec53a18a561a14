import Autoscaling.Decimal.Layout
import Autoscaling.Toml.Reader

/-!
# Writing configuration files

A table lists its plain values first, each on a line, and then its tables and arrays of tables,
each under a header and after a blank line.  A table that has nothing but tables has no header of
its own.  A list of several items has a line for each of them.

A text is written between the first quotes that it can stand between as it is: double quotes, single
quotes, three double quotes, three single quotes.  If there are none, escapes are used.
-/

namespace Autoscaling

namespace Toml

/-! ## Texts and keys -/

/-- Whether a character is a control character other than the tabulator and the line feed. -/
def isControl (c : Char) : Bool := !isPlain c && c != '\n'

/-- The greatest number of times that a character stands in a row, where `run` of them stand in
front of the text. -/
def longestRun (c : Char) (run : Nat) : List Char → Nat
  | [] => run
  | d :: rest =>
      if d = c then longestRun c (run + 1) rest else max run (longestRun c 0 rest)

/-- The escape of a character that does not stand for itself. -/
def escapeOf (c : Char) : List Char :=
  if c = '\x08' then ['\\', 'b']
  else if c = '\t' then ['\\', 't']
  else if c = '\n' then ['\\', 'n']
  else if c = '\x0c' then ['\\', 'f']
  else if c = '\r' then ['\\', 'r']
  else if c = '"' then ['\\', '"']
  else if c = '\\' then ['\\', '\\']
  else '\\' :: 'u' :: (Digits.padded 16 4 c.toNat).map Char.toUpper

/-- The text between double quotes.  On several lines, line feeds stand for themselves, and two
quotes in a row do; `run` counts the quotes in front. -/
def escaped (multi : Bool) (run : Nat) : List Char → List Char
  | [] => []
  | c :: rest =>
      if c = '"' then
        if multi && run < 2 then c :: escaped multi (run + 1) rest
        else escapeOf c ++ escaped multi 0 rest
      else if c = '\\' || c = '\t' || isControl c || (c = '\n' && !multi) then
        escapeOf c ++ escaped multi 0 rest
      else c :: escaped multi 0 rest

/-- A text between double quotes. -/
def basicText (cs : List Char) : List Char := '"' :: escaped false 0 cs ++ ['"']

/-- A text between single quotes. -/
def literalText (cs : List Char) : List Char := '\'' :: cs ++ ['\'']

/-- The line end after opening quotes of a text on several lines. -/
def opening (cs : List Char) : List Char := if cs.contains '\n' then ['\n'] else []

/-- A text between three double quotes. -/
def basicLines (cs : List Char) : List Char :=
  List.replicate 3 '"' ++ opening cs ++ escaped true 0 cs ++ List.replicate 3 '"'

/-- A text between three single quotes. -/
def literalLines (cs : List Char) : List Char :=
  List.replicate 3 '\'' ++ opening cs ++ cs ++ List.replicate 3 '\''

def writeText (s : String) : List Char :=
  let cs := s.toList
  let double := longestRun '"' 0 cs
  let single := longestRun '\'' 0 cs
  let hasLines := cs.contains '\n'
  if !cs.any isControl && !cs.contains '\\' && double = 0 && !hasLines then basicText cs
  else if !cs.any isControl && single = 0 && !hasLines then literalText cs
  else if !cs.any isControl && !cs.contains '\\' && double ≤ 2 then basicLines cs
  else if !cs.any isControl && single ≤ 2 then literalLines cs
  else if hasLines then basicLines cs
  else basicText cs

/-- A key of one name. -/
def writeKey (s : String) : List Char :=
  let cs := s.toList
  let isLine := !cs.any isControl && !cs.contains '\n'
  if !cs.isEmpty && cs.all isBareKeyChar then cs
  else if isLine && !cs.contains '\\' && !cs.contains '"' then basicText cs
  else if isLine && !cs.contains '\'' then literalText cs
  else basicText cs

/-! ## Values -/

mutual

/-- A value on the right of an equals sign. -/
def writeValue : Toml → List Char
  | .str s => writeText s
  | .int n => (intText n.toInt).toList
  | .float x => (Layout.file.write x).toList
  | .bool true => ['t', 'r', 'u', 'e']
  | .bool false => ['f', 'a', 'l', 's', 'e']
  | .moment text => text.toList
  | .array [] => ['[', ']']
  | .array [item] => '[' :: writeValue item ++ [']']
  | .array items => '[' :: writeItems items ++ ['\n', ']']
  | .table [] => ['\x7b', '\x7d']
  | .table (field :: rest) => '\x7b' :: ' ' :: writeFields (field :: rest) ++ [' ', '\x7d']

/-- The items of a list, each on a line of its own. -/
def writeItems : List Toml → List Char
  | [] => []
  | item :: rest => '\n' :: List.replicate 4 ' ' ++ writeValue item ++ ',' :: writeItems rest

/-- The fields of a table on one line. -/
def writeFields : List (String × Toml) → List Char
  | [] => []
  | [(name, value)] => writeKey name ++ [' ', '=', ' '] ++ writeValue value
  | (name, value) :: rest =>
      writeKey name ++ [' ', '=', ' '] ++ writeValue value ++ [',', ' '] ++ writeFields rest

end

/-! ## Documents -/

def isTable : Toml → Bool
  | .table _ => true
  | _ => false

/-- Whether a value stands under a header: a table, or a list of nothing but tables. -/
def isUnderHeader : Toml → Bool
  | .table _ => true
  | .array items => !items.isEmpty && items.all isTable
  | _ => false

/-- The names of a path, separated by points. -/
def writePath : List String → List Char
  | [] => []
  | [name] => writeKey name
  | name :: rest => writeKey name ++ '.' :: writePath rest

/-- The lines of the plain values of a table. -/
def writeBody (fields : List (String × Toml)) : List Char :=
  (fields.filter fun field => !isUnderHeader field.2).flatMap fun field =>
    writeKey field.1 ++ [' ', '=', ' '] ++ writeValue field.2 ++ ['\n']

/-- The header of a table at a path, after a blank line. -/
def writeHeader (path : List String) : List Char := '\n' :: '[' :: writePath path ++ [']', '\n']

/-- The header of an element of an array of tables at a path, after a blank line. -/
def writeElementHeader (path : List String) : List Char :=
  '\n' :: '[' :: '[' :: writePath path ++ [']', ']', '\n']

mutual

/-- The tables and arrays of tables among the fields of the table at a path. -/
def writeSections (path : List String) : List (String × Toml) → List Char
  | [] => []
  | (name, value) :: rest => writeSection (path ++ [name]) value ++ writeSections path rest

/-- A table or an array of tables at a path. -/
def writeSection (path : List String) : Toml → List Char
  | .table fields =>
      (if fields.isEmpty || fields.any fun field => !isUnderHeader field.2 then
        writeHeader path ++ writeBody fields
      else []) ++ writeSections path fields
  | .array items => if items.all isTable then writeElements path items else []
  | _ => []

/-- The elements of an array of tables at a path. -/
def writeElements (path : List String) : List Toml → List Char
  | [] => []
  | .table fields :: rest =>
      writeElementHeader path ++ writeBody fields ++ writeSections path fields ++
        writeElements path rest
  | _ :: rest => writeElements path rest

end

/-- The text of a document.  Nothing stands in front of a header that comes first. -/
def text (fields : List (String × Toml)) : String :=
  match writeBody fields ++ writeSections [] fields with
  | '\n' :: rest => String.ofList rest
  | cs => String.ofList cs

end Toml

end Autoscaling
