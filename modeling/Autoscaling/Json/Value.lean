import Autoscaling.Ordered.Map

/-!
# JSON values

The values of JSON text, with integers and floating-point numbers as two sorts: `1` and `1.0` are
different values.  An object is the list of its fields; in a canonical value the fields of every
object are listed by strictly ascending name.  A `Payload` is a canonical value.  That is the form
in which backend settings are kept, because two canonical values that hold the same data are equal.

Equality of values is `==`.  It is equality of the data except that the two zeros of the
floating-point numbers are equal, and it is reflexive because every number is finite.
-/

namespace Autoscaling

/-- An integer that fits a signed or an unsigned word of 64 bits: from `-2 ^ 63` on and below
`2 ^ 64`. -/
structure JsonInt where
  val : Int
  lower : -9223372036854775808 ≤ val
  upper : val < 18446744073709551616
  deriving DecidableEq

/-- A double that is a number. -/
structure FiniteFloat where
  val : Float
  finite : val.isFinite = true

instance : BEq FiniteFloat := ⟨fun a b => a.val == b.val⟩

open Float.Model in
theorem FiniteFloat.beq_self (x : FiniteFloat) : (x == x) = true := by
  obtain ⟨x, finite⟩ := x
  show (UnpackedFloat.compare x.toModel.unpack x.toModel.unpack == some .eq) = true
  have finite : UnpackedFloat.isFinite x.toModel.unpack = true := finite
  cases hx : x.toModel.unpack with
  | infinity sign =>
      rw [hx] at finite
      exact absurd finite Bool.false_ne_true
  | notANumber =>
      rw [hx] at finite
      exact absurd finite Bool.false_ne_true
  | zero sign => rfl
  | finite sign mantissa exponent _ =>
      have hexponent : compare exponent exponent = .eq := Std.ReflOrd.compare_self
      have hmantissa : compare mantissa mantissa = .eq := Std.ReflOrd.compare_self
      cases sign with
      | positive =>
          show (some ((compare exponent exponent).then (compare mantissa mantissa)) == _) = true
          rw [hexponent, hmantissa]
          rfl
      | negative =>
          show (some ((compare exponent exponent).then
            (compare mantissa mantissa)).swap == _) = true
          rw [hexponent, hmantissa]
          rfl

instance : ReflBEq FiniteFloat := ⟨fun {x} => x.beq_self⟩

/-- A double as a finite one, unless it is infinite or not a number. -/
def FiniteFloat.ofFloat? (x : Float) : Option FiniteFloat :=
  if h : x.isFinite = true then some ⟨x, h⟩ else none

/-- An integer as a JSON integer, unless it is out of range. -/
def JsonInt.ofInt? (n : Int) : Option JsonInt :=
  if h : -9223372036854775808 ≤ n ∧ n < 18446744073709551616 then some ⟨n, h.1, h.2⟩ else none

/-- A value of JSON text. -/
inductive Json where
  | null
  | bool (b : Bool)
  | int (n : JsonInt)
  | float (x : FiniteFloat)
  | str (s : String)
  | arr (items : List Json)
  | obj (fields : List (String × Json))

namespace Json

instance : Inhabited Json := ⟨.null⟩

mutual

/-- Whether two values hold the same data; both zeros are the same. -/
def same : Json → Json → Bool
  | .null, .null => true
  | .bool a, .bool b => a == b
  | .int a, .int b => a == b
  | .float a, .float b => a == b
  | .str a, .str b => a == b
  | .arr a, .arr b => sameItems a b
  | .obj a, .obj b => sameFields a b
  | _, _ => false

def sameItems : List Json → List Json → Bool
  | [], [] => true
  | a :: as, b :: bs => same a b && sameItems as bs
  | _, _ => false

def sameFields : List (String × Json) → List (String × Json) → Bool
  | [], [] => true
  | (k, a) :: as, (l, b) :: bs => k == l && same a b && sameFields as bs
  | _, _ => false

end

instance : BEq Json := ⟨same⟩

mutual

theorem same_self : (value : Json) → same value value = true
  | .null => rfl
  | .bool b => by simp [same]
  | .int n => by simp [same]
  | .float x => by simp [same]
  | .str s => by simp [same]
  | .arr items => by
      rw [same]
      exact sameItems_self items
  | .obj fields => by
      rw [same]
      exact sameFields_self fields

theorem sameItems_self : (items : List Json) → sameItems items items = true
  | [] => rfl
  | item :: rest => by
      rw [sameItems, same_self item, sameItems_self rest]
      rfl

theorem sameFields_self : (fields : List (String × Json)) → sameFields fields fields = true
  | [] => rfl
  | (name, value) :: rest => by
      rw [sameFields, same_self value, sameFields_self rest]
      simp

end

instance : ReflBEq Json := ⟨fun {value} => same_self value⟩

mutual

/-- Every object of the value lists its fields by strictly ascending name. -/
def Canonical : Json → Prop
  | .arr items => CanonicalItems items
  | .obj fields => Ascending fields ∧ CanonicalFields fields
  | _ => True

def CanonicalItems : List Json → Prop
  | [] => True
  | item :: rest => Canonical item ∧ CanonicalItems rest

def CanonicalFields : List (String × Json) → Prop
  | [] => True
  | (_, value) :: rest => Canonical value ∧ CanonicalFields rest

end

mutual

/-- List the fields of every object by name; of fields with the same name the last one stays. -/
def canonical : Json → Json
  | .arr items => .arr (canonicalItems items)
  | .obj fields => .obj (canonicalFields fields [])
  | .null => .null
  | .bool b => .bool b
  | .int n => .int n
  | .float x => .float x
  | .str s => .str s

def canonicalItems : List Json → List Json
  | [] => []
  | item :: rest => canonical item :: canonicalItems rest

/-- File the fields one after the other among those already filed. -/
def canonicalFields : List (String × Json) → List (String × Json) → List (String × Json)
  | [], filed => filed
  | (name, value) :: rest, filed =>
      canonicalFields rest (Entries.insert name (canonical value) filed)

end

theorem canonicalFields_iff {fields : List (String × Json)} :
    CanonicalFields fields ↔ ∀ field ∈ fields, Canonical field.2 := by
  induction fields with
  | nil => simp [CanonicalFields]
  | cons head rest ih =>
      obtain ⟨name, value⟩ := head
      simp [CanonicalFields, ih]

/-- Filing a canonical value among canonical fields keeps them canonical. -/
theorem canonicalFields_insert {name : String} {value : Json} {fields : List (String × Json)}
    (hValue : Canonical value) (hFields : CanonicalFields fields) :
    CanonicalFields (Entries.insert name value fields) := by
  rw [canonicalFields_iff] at hFields ⊢
  intro field hMem
  rcases Entries.mem_insert hMem with h | h
  · exact h ▸ hValue
  · exact hFields field h

mutual

theorem canonical_canonical : (value : Json) → Canonical value.canonical
  | .arr items => by
      rw [canonical, Canonical]
      exact canonicalItems_canonical items
  | .obj fields => by
      rw [canonical, Canonical]
      exact canonicalFields_canonical fields [] List.Pairwise.nil trivial
  | .null => trivial
  | .bool _ => trivial
  | .int _ => trivial
  | .float _ => trivial
  | .str _ => trivial

theorem canonicalItems_canonical : (items : List Json) → CanonicalItems (canonicalItems items)
  | [] => trivial
  | item :: rest => by
      rw [canonicalItems, CanonicalItems]
      exact ⟨canonical_canonical item, canonicalItems_canonical rest⟩

theorem canonicalFields_canonical :
    (fields filed : List (String × Json)) → Ascending filed → CanonicalFields filed →
      Ascending (canonicalFields fields filed) ∧ CanonicalFields (canonicalFields fields filed)
  | [], _, hAsc, hCan => by
      rw [canonicalFields]
      exact ⟨hAsc, hCan⟩
  | (name, value) :: rest, filed, hAsc, hCan => by
      rw [canonicalFields]
      exact canonicalFields_canonical rest _ (Entries.ascending_insert _ _ hAsc)
        (canonicalFields_insert (canonical_canonical value) hCan)

end

/-- The value of an object's field. -/
def field? (name : String) : Json → Option Json
  | .obj fields => Entries.find? name fields
  | _ => none

def ofUInt64 (n : UInt64) : Json :=
  .int ⟨n.toNat, by have := n.toNat_lt; omega, by have := n.toNat_lt; omega⟩

def ofUInt32 (n : UInt32) : Json :=
  .int ⟨n.toNat, by have := n.toNat_lt; omega, by have := n.toNat_lt; omega⟩

def ofInt64 (n : Int64) : Json :=
  .int ⟨n.toInt, by have := n.le_toInt; omega, by have := n.toInt_lt; omega⟩

/-- A natural number, as far as it fits; counts of things in memory do. -/
def ofNat (n : Nat) : Json := ofUInt64 n.toUInt64

/-- A double: `null` stands for one that is not a finite number. -/
def ofFloat (x : Float) : Json :=
  match FiniteFloat.ofFloat? x with
  | some x => .float x
  | none => .null

/-- A value that may be absent: `null` stands for its absence. -/
def ofOption {α : Type _} (write : α → Json) : Option α → Json
  | some x => write x
  | none => .null

def ofList {α : Type _} (write : α → Json) (items : List α) : Json := .arr (items.map write)

end Json

/-- A JSON value in canonical form. -/
structure Payload where
  json : Json
  canonical : json.Canonical

namespace Payload

instance : BEq Payload := ⟨fun a b => a.json == b.json⟩

instance : ReflBEq Payload := ⟨fun {p} => Json.same_self p.json⟩

/-- The canonical form of a value. -/
def ofJson (json : Json) : Payload := ⟨json.canonical, json.canonical_canonical⟩

/-- The absent payload. -/
def null : Payload := ⟨.null, trivial⟩

instance : Inhabited Payload := ⟨null⟩

def isNull (p : Payload) : Bool :=
  match p.json with
  | .null => true
  | _ => false

end Payload

end Autoscaling
