import Autoscaling.Decimal.Layout
import Autoscaling.Json.Value
import Autoscaling.Text.Quoted

/-!
# Why a value does not fit

The causes for which a JSON value cannot be read as data of a given shape, and their wording.
-/

namespace Autoscaling

/-- Why a JSON value does not have the expected shape. -/
inductive DecodeError where
  /-- a value of another sort -/
  | invalidType (found : Json) (expected : String)
  /-- an integer that the expected type does not hold -/
  | outOfRange (n : JsonInt) (expected : String)
  /-- an object that names no variant, or several -/
  | notOneVariant
  /-- a record written as a list of the wrong length -/
  | invalidLength (given : Nat) (expected : String)
  /-- a record without a field it must have -/
  | missingField (name : String)
  /-- a name that no variant has -/
  | unknownVariant (name : String) (known : List String)

namespace DecodeError

/-- A text between grave accents. -/
def ticked (s : String) : String := "\x60" ++ s ++ "\x60"

/-- What a value is, in a message. -/
def describe : Json → String
  | .null => "null"
  | .bool true => "boolean " ++ ticked "true"
  | .bool false => "boolean " ++ ticked "false"
  | .int n => "integer " ++ ticked (intText n.val)
  | .float x => "floating point " ++ ticked (Layout.json.write x.val)
  | .str s => "string " ++ quoted s
  | .arr _ => "sequence"
  | .obj _ => "map"

/-- The names that a message offers: two are joined by a word, more are listed. -/
def offered : List String → String
  | [] => "there are no variants"
  | [one] => "expected " ++ ticked one
  | [one, other] => "expected " ++ ticked one ++ " or " ++ ticked other
  | known => "expected one of " ++ ", ".intercalate (known.map ticked)

def message : DecodeError → String
  | invalidType found expected => "invalid type: " ++ describe found ++ ", expected " ++ expected
  | outOfRange n expected =>
      "invalid value: integer " ++ ticked (intText n.val) ++ ", expected " ++ expected
  | notOneVariant => "invalid value: map, expected map with a single key"
  | invalidLength given expected => "invalid length " ++ natText given ++ ", expected " ++ expected
  | missingField name => "missing field " ++ ticked name
  | unknownVariant name known => "unknown variant " ++ ticked name ++ ", " ++ offered known

end DecodeError

end Autoscaling
