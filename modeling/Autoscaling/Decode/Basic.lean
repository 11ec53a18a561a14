import Autoscaling.Decode.Error

/-!
# Reading values as data

A decoder reads a JSON value as data of some type or says why it cannot.  This module has the
decoders of scalars, lists, pairs, maps and variants; records are in `Autoscaling.Decode.Fields`.

The same data may also come out of a configuration file.  Three rules differ there, and a `Dialect`
holds them.
-/

namespace Autoscaling

/-- The rules by which the notations of data differ. -/
structure Dialect where
  /-- a record written as a list may have items after those of its fields -/
  ignoresExtraItems : Bool
  /-- a variant written as an object has an empty object or list, not `null`, for its data -/
  emptyVariantData : Bool
  /-- `null` stands for a value that is absent, and not for a double that is infinite or no number -/
  nullIsAbsent : Bool
  deriving DecidableEq

namespace Dialect

/-- Data in JSON. -/
def json : Dialect := ⟨false, false, true⟩

/-- Data in a configuration file. -/
def file : Dialect := ⟨true, true, false⟩

end Dialect

/-- Reads a value as data of a type. -/
abbrev Decoder (α : Type) := Dialect → Json → Except DecodeError α

namespace Decoder

def text : Decoder String := fun _ value =>
  match value with
  | .str s => .ok s
  | other => .error (.invalidType other "a string")

/-- An integer from `low` on and below `high`. -/
def integer {α : Type} (low high : Int) (name : String) (make : Int → α) : Decoder α :=
  fun _ value =>
    match value with
    | .int n => if low ≤ n.val ∧ n.val < high then .ok (make n.val) else .error (.outOfRange n name)
    | other => .error (.invalidType other name)

def u32 : Decoder UInt32 := integer 0 4294967296 "u32" fun n => UInt32.ofNat n.toNat

def u64 : Decoder UInt64 := integer 0 18446744073709551616 "u64" fun n => UInt64.ofNat n.toNat

/-- A count of things in memory, which is a word of 64 bits. -/
def usize : Decoder UInt64 := integer 0 18446744073709551616 "usize" fun n => UInt64.ofNat n.toNat

def i64 : Decoder Int64 := integer (-9223372036854775808) 9223372036854775808 "i64" Int64.ofInt

/-- A double; an integer is rounded to one. -/
def f64 : Decoder Float := fun _ value =>
  match value with
  | .int n => .ok (Float.ofInt n.val)
  | .float x => .ok x.val
  | other => .error (.invalidType other "f64")

def bool : Decoder Bool := fun _ value =>
  match value with
  | .bool b => .ok b
  | other => .error (.invalidType other "a boolean")

/-- Any value, as it is. -/
def json : Decoder Json := fun _ value => .ok value

def payload : Decoder Payload := fun _ value => .ok (Payload.ofJson value)

/-- A value that may be absent. -/
def option {α : Type} (decoder : Decoder α) : Decoder (Option α) := fun dialect value =>
  match value with
  | .null => if dialect.nullIsAbsent then .ok none else some <$> decoder dialect .null
  | other => some <$> decoder dialect other

/-- The items of a list, read one after the other. -/
def items {α : Type} (decoder : Decoder α) (dialect : Dialect) :
    List Json → Except DecodeError (List α)
  | [] => .ok []
  | item :: rest => do
      let x ← decoder dialect item
      let xs ← items decoder dialect rest
      .ok (x :: xs)

def list {α : Type} (decoder : Decoder α) : Decoder (List α) := fun dialect value =>
  match value with
  | .arr values => items decoder dialect values
  | other => .error (.invalidType other "a sequence")

/-- A list of two values, of one type each. -/
def pair {α β : Type} (first : Decoder α) (second : Decoder β) : Decoder (α × β) :=
  fun dialect value =>
    match value with
    | .arr [] => .error (.invalidLength 0 "a tuple of size 2")
    | .arr [a] => do
        let _ ← first dialect a
        .error (.invalidLength 1 "a tuple of size 2")
    | .arr (a :: b :: rest) => do
        let x ← first dialect a
        let y ← second dialect b
        if rest.isEmpty || dialect.ignoresExtraItems then .ok (x, y)
        else .error (.invalidLength (rest.length + 2) "fewer elements in array")
    | other => .error (.invalidType other "a tuple of size 2")

/-- The fields of an object, read in their order and filed by name. -/
def fields {α : Type} (decoder : Decoder α) (dialect : Dialect) :
    List (String × Json) → OrderedMap String α → Except DecodeError (OrderedMap String α)
  | [], filed => .ok filed
  | (name, value) :: rest, filed => do
      let x ← decoder dialect value
      fields decoder dialect rest (filed.insert name x)

def map {α : Type} (decoder : Decoder α) : Decoder (OrderedMap String α) := fun dialect value =>
  match value with
  | .obj values => fields decoder dialect values .empty
  | other => .error (.invalidType other "a map")

/-- Whether a value stands for the data of a variant that has none. -/
def isNoData (dialect : Dialect) : Json → Bool
  | .null => !dialect.emptyVariantData
  | .arr [] => dialect.emptyVariantData
  | .obj [] => dialect.emptyVariantData
  | _ => false

/-- The variant of a name. -/
def named {α : Type} (variants : List (String × α)) (name : String) : Except DecodeError α :=
  match variants.lookup name with
  | some x => .ok x
  | none => .error (.unknownVariant name (variants.map Prod.fst))

/-- One of several named variants without data: its name, or an object whose only field has the
name and no data. -/
def variant {α : Type} (variants : List (String × α)) : Decoder α := fun dialect value =>
  match value with
  | .str name => named variants name
  | .obj [(name, data)] => do
      let x ← named variants name
      if isNoData dialect data then .ok x else .error (.invalidType data "unit")
  | .obj _ => .error .notOneVariant
  | other => .error (.invalidType other "string or map")

end Decoder

end Autoscaling
