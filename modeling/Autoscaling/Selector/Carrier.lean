import Autoscaling.Abort
import Autoscaling.Selector.Basic

/-!
# Values carried by selectors

The engine hands labels through and nothing else, so a single value crosses it as a selector with
one label under an agreed key.  Two keys are agreed: one for the name of an autoscaler and one for
a number of replicas.  A selector that was not made here is a defect of the wiring, and reading it
aborts.
-/

namespace Autoscaling

/-- Carries one value under a key. -/
structure Carrier where
  key : String
  deriving DecidableEq

namespace Carrier

/-- Carries the name of an autoscaler. -/
def autoscaler : Carrier := ⟨"autoscaler"⟩

/-- Carries a number of replicas. -/
def replicas : Carrier := ⟨"replicas"⟩

def encode (c : Carrier) (value : String) : Selector := Selector.empty.withLabel c.key value

def decode (c : Carrier) (s : Selector) : Except Abort String :=
  if s.size = 1 then
    match s.get? c.key with
    | some value => .ok value
    | none => .error (.selectorLabel c.key s.text)
  else .error (.selectorFormat s.text)

/-- The selector that carries a number of replicas. -/
def encodeReplicas (n : UInt32) : Selector := replicas.encode (natText n.toNat)

/-- The number that a text stands for: digits, after a plus sign or none, below `2 ^ 32`. -/
def number? (s : String) : Option UInt32 :=
  match Digits.parse? s.toList with
  | some n => if n < 4294967296 then some (UInt32.ofNat n) else none
  | none => none

/-- The number of replicas that a selector carries. -/
def decodeReplicas (s : Selector) : Except Abort UInt32 := do
  let value ← replicas.decode s
  match number? value with
  | some n => .ok n
  | none => .error (.replicasValue s.text)

end Carrier

end Autoscaling
