import Autoscaling.Config.Settings

/-!
# Autoscalers

An autoscaler is what the hub keeps for one scalable target: the declared specification, the
status that the scaling engine last wrote, and a version that the store assigns.  It is filed under
its namespace and name.
-/

namespace Autoscaling

/-- The identity of an autoscaler. -/
structure Key where
  ns : String
  name : String
  deriving DecidableEq, Inhabited

namespace Key

/-- Keys are ordered by namespace, then by name, each by code points. -/
def order : Key → Key → Ordering :=
  compareLex (compareOn Key.ns) (compareOn Key.name)

instance : Ord Key := ⟨order⟩

instance : Std.TransOrd Key :=
  inferInstanceAs (Std.TransCmp (compareLex (compareOn Key.ns) (compareOn Key.name)))

instance : Std.LawfulEqOrd Key where
  eq_of_compare {a b} h := by
    have hBoth : compare a.ns b.ns = .eq ∧ compare a.name b.name = .eq := by
      simpa [compare, order, compareLex, compareOn, Ordering.then_eq_eq] using h
    cases a
    cases b
    cases Std.LawfulEqCmp.eq_of_compare hBoth.1
    cases Std.LawfulEqCmp.eq_of_compare hBoth.2
    rfl

/-- A key in messages: the namespace, a slash and the name. -/
def text (k : Key) : String := k.ns ++ "/" ++ k.name

end Key

/-- How the engine picks among several policies that apply. -/
inductive SelectPolicy where
  | max
  | min
  | disabled
  deriving DecidableEq, Inhabited

/-- What the number of a policy counts. -/
inductive PolicyKind where
  | percent
  | units
  deriving DecidableEq, Inhabited

/-- How much may be scaled within a period. -/
structure ScalingPolicy where
  kind : PolicyKind
  value : UInt32
  periodSecs : UInt32
  deriving DecidableEq, Inhabited

/-- The rules for scaling in one direction. -/
structure ScalingRules where
  stabilizationWindowSecs : Option UInt32
  selectPolicy : SelectPolicy
  policies : List ScalingPolicy
  deriving DecidableEq, Inhabited

/-- The rules for scaling up and for scaling down. -/
structure Behavior where
  scaleUp : Option ScalingRules
  scaleDown : Option ScalingRules
  deriving DecidableEq, Inhabited

/-- A metric that the engine samples, with the backend settings to find it. -/
structure Metric where
  name : String
  /-- the value to hold, in whole units -/
  target : Int64
  config : Option Settings
  deriving BEq, ReflBEq, Inhabited

/-- What is declared for a scalable target. -/
structure Spec where
  ns : String
  name : String
  minReplicas : Option UInt32
  maxReplicas : UInt32
  /-- in the order of their declaration -/
  metrics : List Metric
  /-- the backend settings that say what is scaled -/
  target : Option Settings
  behavior : Option Behavior
  deriving BEq, ReflBEq, Inhabited

def Spec.key (s : Spec) : Key := ⟨s.ns, s.name⟩

/-- The conditions that the engine reports. -/
inductive ConditionType where
  | scalingActive
  | scalingLimited
  | ableToScale
  deriving DecidableEq, Inhabited

namespace ConditionType

/-- The name by which the engine knows a condition. -/
def text : ConditionType → String
  | scalingActive => "ScalingActive"
  | scalingLimited => "ScalingLimited"
  | ableToScale => "AbleToScale"

def names : List (String × ConditionType) :=
  [scalingActive, scalingLimited, ableToScale].map fun c => (c.text, c)

/-- The condition that the engine knows by a name. -/
def ofText? : String → Option ConditionType
  | "ScalingActive" => some scalingActive
  | "ScalingLimited" => some scalingLimited
  | "AbleToScale" => some ableToScale
  | _ => none

end ConditionType

/-- A condition and since when it has held. -/
structure Condition where
  type : ConditionType
  status : String
  /-- seconds since the epoch -/
  lastTransitionTime : UInt64
  reason : String
  message : String
  deriving DecidableEq, Inhabited

/-- The status that the engine computes. -/
structure Status where
  currentScale : Option UInt32
  desiredScale : UInt32
  conditions : List Condition
  /-- seconds since the epoch; zero if there was no scaling yet -/
  lastScaleTime : UInt64
  deriving DecidableEq

/-- The status of an autoscaler that the engine has not seen. -/
def Status.initial : Status := ⟨none, 0, [], 0⟩

instance : Inhabited Status := ⟨Status.initial⟩

/-- What the hub keeps for one scalable target. -/
structure Autoscaler where
  spec : Spec
  status : Status
  version : UInt64
  deriving BEq, Inhabited

namespace Autoscaler

def key (a : Autoscaler) : Key := a.spec.key

/-- An autoscaler that is declared and not yet stored. -/
def declared (spec : Spec) : Autoscaler := ⟨spec, Status.initial, 0⟩

end Autoscaler

end Autoscaling
