import Autoscaling.Decimal.Layout
import Autoscaling.Json.Value

/-!
# Writing JSON text

Two forms: one line without blanks, and one with a line for every item and field, indented by two
blanks for each level.  Fields are written in the order in which the object lists them.
-/

namespace Autoscaling

namespace Json

/-- How a character stands in a JSON string. -/
def escape (c : Char) : List Char :=
  if c = '"' then ['\\', '"']
  else if c = '\\' then ['\\', '\\']
  else if c = '\n' then ['\\', 'n']
  else if c = '\r' then ['\\', 'r']
  else if c = '\t' then ['\\', 't']
  else if c = '\x08' then ['\\', 'b']
  else if c = '\x0c' then ['\\', 'f']
  else if c.toNat < 32 then '\\' :: 'u' :: Digits.padded 16 4 c.toNat
  else [c]

def stringText (s : String) : String :=
  String.ofList ('"' :: s.toList.flatMap escape ++ ['"'])

mutual

/-- The value on one line. -/
def compact : Json → String
  | .null => "null"
  | .bool true => "true"
  | .bool false => "false"
  | .int n => intText n.val
  | .float x => Layout.json.write x.val
  | .str s => stringText s
  | .arr items => "[" ++ compactItems items ++ "]"
  | .obj fields => "\x7b" ++ compactFields fields ++ "\x7d"

def compactItems : List Json → String
  | [] => ""
  | [item] => compact item
  | item :: rest => compact item ++ "," ++ compactItems rest

def compactFields : List (String × Json) → String
  | [] => ""
  | [(name, value)] => stringText name ++ ":" ++ compact value
  | (name, value) :: rest => stringText name ++ ":" ++ compact value ++ "," ++ compactFields rest

end

/-- A new line at a level of indentation. -/
def newLine (level : Nat) : String := "\n" ++ String.ofList (List.replicate (2 * level) ' ')

mutual

/-- The value on indented lines; `level` is that of the line on which it starts. -/
def prettyAt (level : Nat) : Json → String
  | .null => "null"
  | .bool true => "true"
  | .bool false => "false"
  | .int n => intText n.val
  | .float x => Layout.json.write x.val
  | .str s => stringText s
  | .arr [] => "[]"
  | .arr (item :: rest) => "[" ++ prettyItems (level + 1) (item :: rest) ++ newLine level ++ "]"
  | .obj [] => "\x7b\x7d"
  | .obj (field :: rest) =>
      "\x7b" ++ prettyFields (level + 1) (field :: rest) ++ newLine level ++ "\x7d"

/-- The items of a list, each on a line of its own. -/
def prettyItems (level : Nat) : List Json → String
  | [] => ""
  | [item] => newLine level ++ prettyAt level item
  | item :: rest => newLine level ++ prettyAt level item ++ "," ++ prettyItems level rest

/-- The fields of an object, each on a line of its own. -/
def prettyFields (level : Nat) : List (String × Json) → String
  | [] => ""
  | [(name, value)] => newLine level ++ stringText name ++ ": " ++ prettyAt level value
  | (name, value) :: rest =>
      newLine level ++ stringText name ++ ": " ++ prettyAt level value ++ "," ++
        prettyFields level rest

end

def pretty (value : Json) : String := prettyAt 0 value

end Json

end Autoscaling
