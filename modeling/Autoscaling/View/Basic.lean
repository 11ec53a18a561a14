import Autoscaling.Autoscaler.Basic
import Autoscaling.Selector.Basic

/-!
# Views

A view is the form in which the scaling engine sees an autoscaler: a reference to what is scaled,
metrics that are found by name and selector, and policies and conditions known by their names.  It
has no backend settings.
-/

namespace Autoscaling

namespace View

/-- A reference to what is scaled. -/
structure Target where
  kind : String
  apiVersion : String
  name : String
  deriving DecidableEq, Inhabited

/-- A metric to be sampled. -/
structure Metric where
  name : String
  /-- carries the name of the autoscaler it belongs to -/
  selector : Selector
  targetValue : Int64
  deriving BEq, Inhabited

/-- How much may be scaled within a period. -/
structure Policy where
  type : String
  value : UInt32
  periodSeconds : UInt32
  deriving DecidableEq, Inhabited

/-- The rules for scaling in one direction. -/
structure Rules where
  stabilizationWindowSeconds : Option UInt32
  selectPolicy : String
  policies : List Policy
  deriving DecidableEq, Inhabited

/-- The rules for scaling up and for scaling down. -/
structure Behavior where
  scaleUp : Option Rules
  scaleDown : Option Rules
  deriving DecidableEq, Inhabited

/-- What is declared for the target. -/
structure Spec where
  scaleTargetRef : Target
  minReplicas : Option UInt32
  maxReplicas : UInt32
  metrics : List Metric
  behavior : Option Behavior
  deriving BEq, Inhabited

/-- A condition by the name of its type. -/
structure Condition where
  type : String
  status : String
  lastTransitionTime : UInt64
  reason : String
  message : String
  deriving DecidableEq, Inhabited

/-- The status that the engine sees and writes. -/
structure Status where
  currentReplicas : UInt32
  desiredReplicas : UInt32
  conditions : List Condition
  lastScaleTime : Option UInt64
  deriving DecidableEq, Inhabited

end View

/-- An autoscaler as the scaling engine sees it. -/
structure View where
  name : String
  ns : String
  /-- the version of the autoscaler when the view was taken -/
  resourceVersion : UInt64
  spec : View.Spec
  status : View.Status
  deriving BEq, Inhabited

def View.key (v : View) : Key := ⟨v.ns, v.name⟩

end Autoscaling
