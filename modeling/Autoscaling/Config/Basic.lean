import Autoscaling.Config.Settings

/-!
# The configuration

One configuration names a backend for each seam of the hub and holds the numbers that tune it.
This module has its types, its written form and the check that it is complete and in range; the
text of configuration files is in `Autoscaling.Config.File`.
-/

namespace Autoscaling

/-- What becomes of a watch whose queue is full. -/
inductive Overflow where
  /-- the watch ends; its reader lists and watches anew -/
  | disconnect
  /-- the event that does not fit is lost and the watch goes on -/
  | dropNewest
  deriving DecidableEq, Inhabited

namespace Overflow

def names : List (String × Overflow) :=
  [("disconnect", .disconnect), ("drop_newest", .dropNewest)]

def toJson : Overflow → Json
  | .disconnect => .str "disconnect"
  | .dropNewest => .str "drop_newest"

def decoder : Decoder Overflow := Decoder.variant names

end Overflow

/-- How the store queues events for its watches. -/
structure Tuning where
  /-- how many events a watch may have unread -/
  watchQueueCapacity : UInt64 := 256
  watchOverflow : Overflow := .disconnect
  deriving DecidableEq, Inhabited

namespace Tuning

def toJson (t : Tuning) : Json :=
  .obj [("watch_queue_capacity", .ofUInt64 t.watchQueueCapacity),
    ("watch_overflow", t.watchOverflow.toJson)]

def decoder : Decoder Tuning :=
  (Tuning.mk <$> Fields.withDefault "watch_queue_capacity" Decoder.usize 256
    <*> Fields.withDefault "watch_overflow" Overflow.decoder .disconnect).decoder "StoreTuning"

end Tuning

/-- A configuration of the hub. -/
structure Config where
  storage : Option Settings
  metrics : Option Settings
  scaling : Option Settings
  events : Option Settings
  /-- seconds between two observations -/
  resyncPeriodSecs : UInt64 := 15
  /-- the deviation from a target that the engine lets pass -/
  tolerance : Float := 0.1
  downscaleStabilizationSecs : UInt64 := 300
  /-- how many autoscalers are observed at a time -/
  workers : UInt64 := 1
  store : Tuning := {}

namespace Config

def toJson (c : Config) : Json :=
  .obj [
    ("storage", .ofOption Settings.toJson c.storage),
    ("metrics", .ofOption Settings.toJson c.metrics),
    ("scaling", .ofOption Settings.toJson c.scaling),
    ("events", .ofOption Settings.toJson c.events),
    ("resync_period_secs", .ofUInt64 c.resyncPeriodSecs),
    ("tolerance", .ofFloat c.tolerance),
    ("downscale_stabilization_secs", .ofUInt64 c.downscaleStabilizationSecs),
    ("workers", .ofUInt64 c.workers),
    ("store", c.store.toJson)]

def decoder : Decoder Config :=
  (Config.mk <$> Fields.optional "storage" Settings.decoder
    <*> Fields.optional "metrics" Settings.decoder
    <*> Fields.optional "scaling" Settings.decoder
    <*> Fields.optional "events" Settings.decoder
    <*> Fields.withDefault "resync_period_secs" Decoder.u64 15
    <*> Fields.withDefault "tolerance" Decoder.f64 0.1
    <*> Fields.withDefault "downscale_stabilization_secs" Decoder.u64 300
    <*> Fields.withDefault "workers" Decoder.usize 1
    <*> Fields.withDefault "store" Tuning.decoder {}).decoder "ControllerConfig"

/-- Check that the three clients that every hub needs are named and the numbers are in range. -/
def validate (c : Config) : Except ConfigError Unit :=
  if c.storage.isNone then .error (.missing "storage")
  else if c.metrics.isNone then .error (.missing "metrics")
  else if c.scaling.isNone then .error (.missing "scaling")
  else if c.workers = 0 then .error (.invalid "workers must be > 0")
  else if c.store.watchQueueCapacity = 0 then
    .error (.invalid "store.watch_queue_capacity must be > 0")
  else if 0.0 ≤ c.tolerance ∧ c.tolerance < 1.0 then .ok ()
  else .error (.invalid ("tolerance must be in [0, 1): " ++ Layout.message.write c.tolerance))

end Config

end Autoscaling
