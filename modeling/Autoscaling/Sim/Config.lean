import Autoscaling.Decode.Fields

/-!
# Simulated load

The settings of the simulation: one metric, and for every simulated autoscaler a curve of loads
that are each held for a while.
-/

namespace Autoscaling

namespace Sim

/-- A load that is held for a while. -/
structure Segment where
  timespanMillis : UInt64
  load : Float
  deriving Inhabited

/-- The settings for one autoscaler. -/
structure TargetConfig where
  name : String
  ns : String
  /-- the load that fills one instance -/
  maxLoad : Float
  /-- the segments of the curve, which starts anew after the last one -/
  curve : List Segment
  deriving Inhabited

/-- The settings of the simulation. -/
structure Config where
  metricName : String
  targets : List TargetConfig
  deriving Inhabited

def Segment.decoder : Decoder Segment :=
  (Segment.mk <$> Fields.field "timespan_ms" Decoder.u64
    <*> Fields.field "load" Decoder.f64).decoder "LoadSegment"

def TargetConfig.decoder : Decoder TargetConfig :=
  (TargetConfig.mk <$> Fields.field "autoscaler_name" Decoder.text
    <*> Fields.withDefault "autoscaler_namespace" Decoder.text ""
    <*> Fields.field "max_load_per_instance" Decoder.f64
    <*> Fields.field "load" (Decoder.list Segment.decoder)).decoder "SimAutoscalerConfig"

def Config.decoder : Decoder Config :=
  (Config.mk <$> Fields.field "metric_name" Decoder.text
    <*> Fields.field "autoscalers" (Decoder.list TargetConfig.decoder)).decoder "SimConfig"

def Segment.toJson (s : Segment) : Json :=
  .obj [("timespan_ms", .ofUInt64 s.timespanMillis), ("load", .ofFloat s.load)]

def TargetConfig.toJson (t : TargetConfig) : Json :=
  .obj [
    ("autoscaler_name", .str t.name),
    ("autoscaler_namespace", .str t.ns),
    ("max_load_per_instance", .ofFloat t.maxLoad),
    ("load", .ofList Segment.toJson t.curve)]

def Config.toJson (c : Config) : Json :=
  .obj [("metric_name", .str c.metricName), ("autoscalers", .ofList TargetConfig.toJson c.targets)]

end Sim

end Autoscaling
