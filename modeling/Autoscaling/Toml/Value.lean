import Autoscaling.Json.Value

/-!
# Values of configuration files

A configuration file is a table of named values.  Its values are those of JSON and two more: a
point of time, and doubles that are infinite or no number.  In JSON a point of time becomes an
object with one field of a reserved name, and those doubles become `null`.

In the other direction JSON has two values that a file cannot hold: `null`, and an integer beyond
the signed words of 64 bits.
-/

namespace Autoscaling

/-- A value of a configuration file. -/
inductive Toml where
  | str (s : String)
  | int (n : Int64)
  | float (x : Float)
  | bool (b : Bool)
  /-- a date, a time or both, in its normal text -/
  | moment (text : String)
  | array (items : List Toml)
  /-- named values; no two have the same name -/
  | table (fields : List (String × Toml))

namespace Toml

instance : Inhabited Toml := ⟨.bool false⟩

/-- The name of the field that stands for a point of time in JSON. -/
def momentName : String := "$__toml_private_datetime"

mutual

/-- The value in JSON. -/
def toJson : Toml → Json
  | .str s => .str s
  | .int n => .ofInt64 n
  | .float x => .ofFloat x
  | .bool b => .bool b
  | .moment text => .obj [(momentName, .str text)]
  | .array items => .arr (itemsToJson items)
  | .table fields => .obj (fieldsToJson fields)

def itemsToJson : List Toml → List Json
  | [] => []
  | item :: rest => toJson item :: itemsToJson rest

def fieldsToJson : List (String × Toml) → List (String × Json)
  | [] => []
  | (name, value) :: rest => (name, toJson value) :: fieldsToJson rest

end

/-- Why a JSON value has no place in a configuration file. -/
inductive Unwritable where
  | null
  | integer
  deriving DecidableEq

def Unwritable.message : Unwritable → String
  | null => "unsupported unit type"
  | integer => "out-of-range value for u64 type"

/-- An integer, if a signed word of 64 bits holds it. -/
def ofInt (n : Int) : Except Unwritable Toml :=
  if n < 9223372036854775808 then .ok (.int (Int64.ofInt n)) else .error .integer

mutual

/-- A JSON value in a configuration file; the first value that has no place there is refused. -/
def ofJson : Json → Except Unwritable Toml
  | .null => .error .null
  | .bool b => .ok (.bool b)
  | .int n => ofInt n.val
  | .float x => .ok (.float x.val)
  | .str s => .ok (.str s)
  | .arr items => .array <$> itemsOfJson items
  | .obj fields => .table <$> fieldsOfJson fields

def itemsOfJson : List Json → Except Unwritable (List Toml)
  | [] => .ok []
  | item :: rest => do
      let first ← ofJson item
      let others ← itemsOfJson rest
      .ok (first :: others)

def fieldsOfJson : List (String × Json) → Except Unwritable (List (String × Toml))
  | [] => .ok []
  | (name, value) :: rest => do
      let first ← ofJson value
      let others ← fieldsOfJson rest
      .ok ((name, first) :: others)

end

end Toml

end Autoscaling
