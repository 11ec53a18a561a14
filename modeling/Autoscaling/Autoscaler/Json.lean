import Autoscaling.Autoscaler.Basic

/-!
# Autoscalers as JSON

The written form of autoscalers and their parts, each beside the decoder that reads it.  Writing
lists every field in the order of declaration, with `null` for what is absent.
-/

namespace Autoscaling

namespace Key

def toJson (k : Key) : Json := .obj [("namespace", .str k.ns), ("name", .str k.name)]

def decoder : Decoder Key :=
  (Key.mk <$> Fields.field "namespace" Decoder.text
    <*> Fields.field "name" Decoder.text).decoder "AutoscalerKey"

end Key

namespace SelectPolicy

def names : List (String × SelectPolicy) :=
  [("max", .max), ("min", .min), ("disabled", .disabled)]

def toJson : SelectPolicy → Json
  | .max => .str "max"
  | .min => .str "min"
  | .disabled => .str "disabled"

def decoder : Decoder SelectPolicy := Decoder.variant names

end SelectPolicy

namespace PolicyKind

def names : List (String × PolicyKind) := [("percent", .percent), ("units", .units)]

def toJson : PolicyKind → Json
  | .percent => .str "percent"
  | .units => .str "units"

def decoder : Decoder PolicyKind := Decoder.variant names

end PolicyKind

namespace ScalingPolicy

def toJson (p : ScalingPolicy) : Json :=
  .obj [("kind", p.kind.toJson), ("value", .ofUInt32 p.value),
    ("period_secs", .ofUInt32 p.periodSecs)]

def decoder : Decoder ScalingPolicy :=
  (ScalingPolicy.mk <$> Fields.field "kind" PolicyKind.decoder
    <*> Fields.field "value" Decoder.u32
    <*> Fields.field "period_secs" Decoder.u32).decoder "ScalingPolicy"

end ScalingPolicy

namespace ScalingRules

def toJson (r : ScalingRules) : Json :=
  .obj [("stabilization_window_secs", .ofOption .ofUInt32 r.stabilizationWindowSecs),
    ("select_policy", r.selectPolicy.toJson),
    ("policies", .ofList ScalingPolicy.toJson r.policies)]

def decoder : Decoder ScalingRules :=
  (ScalingRules.mk <$> Fields.optionalTail "stabilization_window_secs" Decoder.u32
    <*> Fields.withDefault "select_policy" SelectPolicy.decoder .max
    <*> Fields.withDefault "policies" (Decoder.list ScalingPolicy.decoder) []).decoder
    "ScalingRules"

end ScalingRules

namespace Behavior

def toJson (b : Behavior) : Json :=
  .obj [("scale_up", .ofOption ScalingRules.toJson b.scaleUp),
    ("scale_down", .ofOption ScalingRules.toJson b.scaleDown)]

def decoder : Decoder Behavior :=
  (Behavior.mk <$> Fields.optionalTail "scale_up" ScalingRules.decoder
    <*> Fields.optionalTail "scale_down" ScalingRules.decoder).decoder "Behavior"

end Behavior

namespace Metric

def toJson (m : Metric) : Json :=
  .obj [("name", .str m.name), ("target", .ofInt64 m.target),
    ("config", .ofOption Settings.toJson m.config)]

def decoder : Decoder Metric :=
  (Metric.mk <$> Fields.field "name" Decoder.text
    <*> Fields.field "target" Decoder.i64
    <*> Fields.optionalTail "config" Settings.decoder).decoder "Metric"

end Metric

namespace Spec

def toJson (s : Spec) : Json :=
  .obj [("namespace", .str s.ns), ("name", .str s.name),
    ("min_replicas", .ofOption .ofUInt32 s.minReplicas),
    ("max_replicas", .ofUInt32 s.maxReplicas),
    ("metrics", .ofList Metric.toJson s.metrics),
    ("target", .ofOption Settings.toJson s.target),
    ("behavior", .ofOption Behavior.toJson s.behavior)]

def decoder : Decoder Spec :=
  (Spec.mk <$> Fields.field "namespace" Decoder.text
    <*> Fields.field "name" Decoder.text
    <*> Fields.optionalTail "min_replicas" Decoder.u32
    <*> Fields.field "max_replicas" Decoder.u32
    <*> Fields.field "metrics" (Decoder.list Metric.decoder)
    <*> Fields.optionalTail "target" Settings.decoder
    <*> Fields.optionalTail "behavior" Behavior.decoder).decoder "AutoscalerSpec"

end Spec

namespace ConditionType

def toJson (c : ConditionType) : Json := .str c.text

def decoder : Decoder ConditionType := Decoder.variant names

end ConditionType

namespace Condition

def toJson (c : Condition) : Json :=
  .obj [("condition_type", c.type.toJson), ("status", .str c.status),
    ("last_transition_time", .ofUInt64 c.lastTransitionTime), ("reason", .str c.reason),
    ("message", .str c.message)]

def decoder : Decoder Condition :=
  (Condition.mk <$> Fields.field "condition_type" ConditionType.decoder
    <*> Fields.field "status" Decoder.text
    <*> Fields.field "last_transition_time" Decoder.u64
    <*> Fields.field "reason" Decoder.text
    <*> Fields.field "message" Decoder.text).decoder "Condition"

end Condition

namespace Status

def toJson (s : Status) : Json :=
  .obj [("current_scale", .ofOption .ofUInt32 s.currentScale),
    ("desired_scale", .ofUInt32 s.desiredScale),
    ("conditions", .ofList Condition.toJson s.conditions),
    ("last_scale_time", .ofUInt64 s.lastScaleTime)]

def decoder : Decoder Status :=
  (Status.mk <$> Fields.optional "current_scale" Decoder.u32
    <*> Fields.field "desired_scale" Decoder.u32
    <*> Fields.field "conditions" (Decoder.list Condition.decoder)
    <*> Fields.field "last_scale_time" Decoder.u64).decoder "AutoscalerStatus"

end Status

namespace Autoscaler

def toJson (a : Autoscaler) : Json :=
  .obj [("spec", a.spec.toJson), ("status", a.status.toJson), ("version", .ofUInt64 a.version)]

def decoder : Decoder Autoscaler :=
  (Autoscaler.mk <$> Fields.field "spec" Spec.decoder
    <*> Fields.withDefault "status" Status.decoder Status.initial
    <*> Fields.withDefault "version" Decoder.u64 0).decoder "AutoscalerRecord"

end Autoscaler

end Autoscaling
