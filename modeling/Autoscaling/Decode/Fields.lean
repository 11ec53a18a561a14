import Autoscaling.Decode.Basic

/-!
# Reading records

A record is read field by field, either from an object by name or from a list by position.  A
value of `Fields` describes its fields in the order of their declaration; it is put together with
`<$>` and `<*>` from the descriptions of single fields, so one description serves both forms.

Of several faults in an object one is reported.  A value that does not fit goes before a field
that is missing; of the values the one whose field has the least name; of the missing fields the
one declared first.  In a list the first fault is reported; if it ends too early that is the place
of the first field for whose absence nothing stands.
-/

namespace Autoscaling

/-- What reading the fields of an object came to. -/
inductive Found (α : Type) where
  | all (value : α)
  | bad (field : String) (error : DecodeError)
  | missing (field : String)

/-- Join what two groups of fields came to, the first declared before the second. -/
def Found.join {α β : Type} : Found (α → β) → Found α → Found β
  | .bad field error, .bad field' error' =>
      if field' < field then .bad field' error' else .bad field error
  | .bad field error, _ => .bad field error
  | _, .bad field error => .bad field error
  | .missing field, _ => .missing field
  | .all _, .missing field => .missing field
  | .all f, .all x => .all (f x)

/-- Why the items of a list are not those of a record. -/
inductive ItemFault where
  /-- the list ends before the field of this number, which it must have -/
  | absent (index : Nat)
  | bad (error : DecodeError)

/-- A fault among fields that come after so many others. -/
def ItemFault.after (n : Nat) : ItemFault → ItemFault
  | .absent index => .absent (n + index)
  | .bad error => .bad error

/-- Reads the next items of a list; answers with what is left. -/
abbrev ItemReader (α : Type) := Dialect → List Json → Except ItemFault (α × List Json)

/-- The description of some fields of a record. -/
structure Fields (α : Type) where
  /-- how many fields there are -/
  size : Nat
  ofFields : Dialect → List (String × Json) → Found α
  ofItems : ItemReader α

namespace Fields

instance : Applicative Fields where
  pure x := ⟨0, fun _ _ => .all x, fun _ items => .ok (x, items)⟩
  seq f x :=
    { size := f.size + (x ()).size
      ofFields := fun dialect fields =>
        (f.ofFields dialect fields).join ((x ()).ofFields dialect fields)
      ofItems := fun dialect items => do
        let (g, items) ← f.ofItems dialect items
        let (y, items) ← ((x ()).ofItems dialect items).mapError (ItemFault.after f.size)
        .ok (g y, items) }

/-- A field, with the values that stand for its absence from an object and from the end of a
list, if it may be absent there. -/
def cell {α : Type} (name : String) (decoder : Decoder α) (fromObject fromList : Option α) :
    Fields α where
  size := 1
  ofFields dialect fields :=
    match Entries.find? name fields with
    | some value =>
        match decoder dialect value with
        | .ok x => .all x
        | .error error => .bad name error
    | none =>
        match fromObject with
        | some x => .all x
        | none => .missing name
  ofItems dialect items :=
    match items with
    | value :: rest =>
        match decoder dialect value with
        | .ok x => .ok (x, rest)
        | .error error => .error (.bad error)
    | [] =>
        match fromList with
        | some x => .ok (x, [])
        | none => .error (.absent 0)

def field {α : Type} (name : String) (decoder : Decoder α) : Fields α :=
  cell name decoder none none

/-- A field with a value that stands for its absence. -/
def withDefault {α : Type} (name : String) (decoder : Decoder α) (value : α) : Fields α :=
  cell name decoder (some value) (some value)

/-- A field that may be absent from an object but has its place in a list. -/
def optional {α : Type} (name : String) (decoder : Decoder α) : Fields (Option α) :=
  cell name decoder.option (some none) none

/-- A field that may be absent from an object and from the end of a list. -/
def optionalTail {α : Type} (name : String) (decoder : Decoder α) : Fields (Option α) :=
  cell name decoder.option (some none) (some none)

/-- The number of a record's fields, in a message. -/
def elements (n : Nat) : String :=
  if n = 1 then "1 element" else natText n ++ " elements"

/-- The decoder of a record of the given name. -/
def decoder {α : Type} (described : Fields α) (name : String) : Decoder α := fun dialect value =>
  match value with
  | .obj fields =>
      match described.ofFields dialect fields with
      | .all x => .ok x
      | .bad _ error => .error error
      | .missing field => .error (.missingField field)
  | .arr items =>
      match described.ofItems dialect items with
      | .ok (x, rest) =>
          if rest.isEmpty || dialect.ignoresExtraItems then .ok x
          else .error (.invalidLength items.length "fewer elements in array")
      | .error (.bad error) => .error error
      | .error (.absent index) =>
          .error (.invalidLength index
            ("struct " ++ name ++ " with " ++ elements described.size))
  | other => .error (.invalidType other ("struct " ++ name))

end Fields

end Autoscaling
