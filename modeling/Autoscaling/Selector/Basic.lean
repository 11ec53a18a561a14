import Autoscaling.Decode.Basic
import Autoscaling.Store.Error

/-!
# Selectors

A selector is a finite map from label keys to label values.  Its text form lists the labels by
ascending key as `key=value`, separated by commas.  Reading the text form is strict: every part
has exactly one equals sign and a key in front of it; nothing is trimmed.
-/

namespace Autoscaling

/-- A set of labels. -/
structure Selector where
  labels : OrderedMap String String
  deriving BEq, Inhabited

namespace Selector

def empty : Selector := ⟨.empty⟩

/-- A selector with one more label, which replaces a label of the same key. -/
def withLabel (s : Selector) (key value : String) : Selector := ⟨s.labels.insert key value⟩

def get? (s : Selector) (key : String) : Option String := s.labels.find? key

def size (s : Selector) : Nat := s.labels.size

/-- The text form of labels. -/
def labelsText : List (String × String) → List Char
  | [] => []
  | [(key, value)] => key.toList ++ '=' :: value.toList
  | (key, value) :: rest => key.toList ++ '=' :: value.toList ++ ',' :: labelsText rest

/-- The text form. -/
def text (s : Selector) : String := String.ofList (labelsText s.labels.entries)

/-- The parts of a text between its commas. -/
def parts : List Char → List (List Char)
  | [] => [[]]
  | c :: rest =>
      if c = ',' then [] :: parts rest
      else
        match parts rest with
        | [] => [[c]]
        | part :: others => (c :: part) :: others

/-- The label that a part stands for. -/
def label? (part : List Char) : Option (String × String) :=
  let key := part.takeWhile (· != '=')
  match part.drop key.length with
  | _ :: value =>
      if key.isEmpty || value.contains '=' then none
      else some (String.ofList key, String.ofList value)
  | [] => none

/-- Add the labels that the parts stand for, up to the first part that is none. -/
def ofParts (s : Selector) : List (List Char) → Except StateError Selector
  | [] => .ok s
  | part :: rest =>
      match label? part with
      | some (key, value) => ofParts (s.withLabel key value) rest
      | none => .error (.invalid ("invalid selector expression: " ++ String.ofList part))

/-- Read the text form.  The empty text is the empty selector. -/
def parse (s : String) : Except StateError Selector :=
  if s.isEmpty then .ok empty else ofParts empty (parts s.toList)

/-- The written form: an object of the labels. -/
def toJson (s : Selector) : Json := .obj (s.labels.entries.map fun e => (e.1, .str e.2))

def decoder : Decoder Selector := fun dialect value =>
  Selector.mk <$> Decoder.map Decoder.text dialect value

end Selector

end Autoscaling
