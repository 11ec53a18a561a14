import Autoscaling.View.Basic

/-!
# Views as JSON

The written form of views and their parts, each beside the decoder that reads it.  Writing lists
every field in the order of declaration, with `null` for what is absent.
-/

namespace Autoscaling

namespace View

namespace Target

def toJson (t : Target) : Json :=
  .obj [("kind", .str t.kind), ("api_version", .str t.apiVersion), ("name", .str t.name)]

def decoder : Decoder Target :=
  (Target.mk <$> Fields.field "kind" Decoder.text
    <*> Fields.field "api_version" Decoder.text
    <*> Fields.field "name" Decoder.text).decoder "ScaleTargetRef"

end Target

namespace Metric

def toJson (m : Metric) : Json :=
  .obj [("name", .str m.name), ("selector", m.selector.toJson),
    ("target_value", .ofInt64 m.targetValue)]

def decoder : Decoder Metric :=
  (Metric.mk <$> Fields.field "name" Decoder.text
    <*> Fields.field "selector" Selector.decoder
    <*> Fields.field "target_value" Decoder.i64).decoder "ExternalMetric"

end Metric

namespace Policy

def toJson (p : Policy) : Json :=
  .obj [("policy_type", .str p.type), ("value", .ofUInt32 p.value),
    ("period_seconds", .ofUInt32 p.periodSeconds)]

def decoder : Decoder Policy :=
  (Policy.mk <$> Fields.field "policy_type" Decoder.text
    <*> Fields.field "value" Decoder.u32
    <*> Fields.field "period_seconds" Decoder.u32).decoder "ViewScalingPolicy"

end Policy

namespace Rules

def toJson (r : Rules) : Json :=
  .obj [("stabilization_window_seconds", .ofOption .ofUInt32 r.stabilizationWindowSeconds),
    ("select_policy", .str r.selectPolicy), ("policies", .ofList Policy.toJson r.policies)]

def decoder : Decoder Rules :=
  (Rules.mk <$> Fields.optional "stabilization_window_seconds" Decoder.u32
    <*> Fields.field "select_policy" Decoder.text
    <*> Fields.field "policies" (Decoder.list Policy.decoder)).decoder "ViewScalingRules"

end Rules

namespace Behavior

def toJson (b : Behavior) : Json :=
  .obj [("scale_up", .ofOption Rules.toJson b.scaleUp),
    ("scale_down", .ofOption Rules.toJson b.scaleDown)]

def decoder : Decoder Behavior :=
  (Behavior.mk <$> Fields.optional "scale_up" Rules.decoder
    <*> Fields.optional "scale_down" Rules.decoder).decoder "ViewBehavior"

end Behavior

namespace Spec

def toJson (s : Spec) : Json :=
  .obj [("scale_target_ref", s.scaleTargetRef.toJson),
    ("min_replicas", .ofOption .ofUInt32 s.minReplicas),
    ("max_replicas", .ofUInt32 s.maxReplicas),
    ("metrics", .ofList Metric.toJson s.metrics),
    ("behavior", .ofOption Behavior.toJson s.behavior)]

def decoder : Decoder Spec :=
  (Spec.mk <$> Fields.field "scale_target_ref" Target.decoder
    <*> Fields.optional "min_replicas" Decoder.u32
    <*> Fields.field "max_replicas" Decoder.u32
    <*> Fields.field "metrics" (Decoder.list Metric.decoder)
    <*> Fields.optional "behavior" Behavior.decoder).decoder "ViewSpec"

end Spec

namespace Condition

def toJson (c : Condition) : Json :=
  .obj [("condition_type", .str c.type), ("status", .str c.status),
    ("last_transition_time", .ofUInt64 c.lastTransitionTime), ("reason", .str c.reason),
    ("message", .str c.message)]

def decoder : Decoder Condition :=
  (Condition.mk <$> Fields.field "condition_type" Decoder.text
    <*> Fields.field "status" Decoder.text
    <*> Fields.field "last_transition_time" Decoder.u64
    <*> Fields.field "reason" Decoder.text
    <*> Fields.field "message" Decoder.text).decoder "ViewCondition"

end Condition

namespace Status

def toJson (s : Status) : Json :=
  .obj [("current_replicas", .ofUInt32 s.currentReplicas),
    ("desired_replicas", .ofUInt32 s.desiredReplicas),
    ("conditions", .ofList Condition.toJson s.conditions),
    ("last_scale_time", .ofOption .ofUInt64 s.lastScaleTime)]

def decoder : Decoder Status :=
  (Status.mk <$> Fields.field "current_replicas" Decoder.u32
    <*> Fields.field "desired_replicas" Decoder.u32
    <*> Fields.field "conditions" (Decoder.list Condition.decoder)
    <*> Fields.optional "last_scale_time" Decoder.u64).decoder "ViewStatus"

end Status

def toJson (v : View) : Json :=
  .obj [("name", .str v.name), ("namespace", .str v.ns),
    ("resource_version", .ofUInt64 v.resourceVersion), ("spec", v.spec.toJson),
    ("status", v.status.toJson)]

def decoder : Decoder View :=
  (View.mk <$> Fields.field "name" Decoder.text
    <*> Fields.field "namespace" Decoder.text
    <*> Fields.field "resource_version" Decoder.u64
    <*> Fields.field "spec" Spec.decoder
    <*> Fields.field "status" Status.decoder).decoder "AutoscalerView"

end View

end Autoscaling
