import Autoscaling.Selector.Carrier
import Autoscaling.View.Basic

/-!
# Views of autoscalers

`Autoscaler.view` shows an autoscaler to the engine and refuses one that the engine could not
address or measure.  `View.Status.toStatus` takes back a status that the engine wrote.  The two
conversions of the status are inverse to each other up to three corners: an absent scale is shown
as zero, a scaling time of zero is shown as absent, and the engine may write a condition of a type
that does not exist.
-/

namespace Autoscaling

namespace View

/-- The kind in every reference to what is scaled. -/
def targetKind : String := "Scalable"

/-- The version of the interface in every reference to what is scaled. -/
def targetApiVersion : String := "scalehub.io/v1"

/-- The name of a choice among policies. -/
def selectPolicyName : SelectPolicy → String
  | .max => "Max"
  | .min => "Min"
  | .disabled => "Disabled"

/-- The name of what a policy counts. -/
def policyTypeName : PolicyKind → String
  | .percent => "Percent"
  | .units => "Pods"

/-- A policy as the engine sees it. -/
def Policy.of (p : ScalingPolicy) : Policy := ⟨policyTypeName p.kind, p.value, p.periodSecs⟩

def Rules.of (r : ScalingRules) : Rules :=
  ⟨r.stabilizationWindowSecs, selectPolicyName r.selectPolicy, r.policies.map Policy.of⟩

def Behavior.of (b : Autoscaling.Behavior) : Behavior :=
  ⟨b.scaleUp.map Rules.of, b.scaleDown.map Rules.of⟩

def Metric.of (name : String) (m : Autoscaling.Metric) : Metric :=
  ⟨m.name, Carrier.autoscaler.encode name, m.target⟩

/-- What is declared as the engine sees it. -/
def Spec.of (s : Autoscaling.Spec) : Spec :=
  { scaleTargetRef := ⟨targetKind, targetApiVersion, s.name⟩
    minReplicas := s.minReplicas
    maxReplicas := s.maxReplicas
    metrics := s.metrics.map (Metric.of s.name)
    behavior := s.behavior.map Behavior.of }

def Condition.of (c : Autoscaling.Condition) : Condition :=
  ⟨c.type.text, c.status, c.lastTransitionTime, c.reason, c.message⟩

/-- A condition that the engine wrote. -/
def Condition.toCondition (c : Condition) : Except StateError Autoscaling.Condition :=
  match ConditionType.ofText? c.type with
  | some type => .ok ⟨type, c.status, c.lastTransitionTime, c.reason, c.message⟩
  | none => .error (.invalid ("unexpected condition type: " ++ c.type))

/-- Conditions that the engine wrote, up to the first of an unknown type. -/
def Condition.toConditions : List Condition → Except StateError (List Autoscaling.Condition)
  | [] => .ok []
  | c :: rest => do
      let first ← c.toCondition
      let others ← toConditions rest
      .ok (first :: others)

def Status.of (s : Autoscaling.Status) : Status :=
  { currentReplicas := s.currentScale.getD 0
    desiredReplicas := s.desiredScale
    conditions := s.conditions.map Condition.of
    lastScaleTime := if s.lastScaleTime = 0 then none else some s.lastScaleTime }

/-- A status that the engine wrote. -/
def Status.toStatus (s : Status) : Except StateError Autoscaling.Status := do
  let conditions ← Condition.toConditions s.conditions
  .ok ⟨some s.currentReplicas, s.desiredReplicas, conditions, s.lastScaleTime.getD 0⟩

end View

namespace Autoscaler

/-- An autoscaler as the engine sees it.  It must have a name, a namespace and a metric. -/
def view (a : Autoscaler) : Except StateError View :=
  if a.spec.name.isEmpty then .error (.invalid "name is required")
  else if a.spec.ns.isEmpty then
    .error (.invalid ("namespace is required for " ++ a.spec.name))
  else if a.spec.metrics.isEmpty then .error (.invalid ("no metrics for " ++ a.key.text))
  else .ok ⟨a.spec.name, a.spec.ns, a.version, View.Spec.of a.spec, View.Status.of a.status⟩

end Autoscaler

end Autoscaling
