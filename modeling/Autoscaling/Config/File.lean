import Autoscaling.Config.Basic
import Autoscaling.Toml.Printer

/-!
# Configuration files

A configuration is read from the text of a file and checked, and it can be written as such a text.
Reading back what was written, without limits on the document, yields the same configuration.
-/

namespace Autoscaling

namespace Settings

/-- Settings as a table: the type id, and the payload if there is one. -/
def toToml (s : Settings) : Except Toml.Unwritable Toml :=
  if s.payload.isNull then .ok (.table [("type", .str s.typeId)])
  else do
    let payload ← Toml.ofJson s.payload.json
    .ok (.table [("type", .str s.typeId), ("config", payload)])

end Settings

namespace Overflow

def toToml : Overflow → Toml
  | .disconnect => .str "disconnect"
  | .dropNewest => .str "drop_newest"

end Overflow

namespace Tuning

def toToml (t : Tuning) : Except Toml.Unwritable Toml := do
  let capacity ← Toml.ofInt t.watchQueueCapacity.toNat
  .ok (.table [("watch_queue_capacity", capacity), ("watch_overflow", t.watchOverflow.toToml)])

end Tuning

namespace Config

/-- The fields of a document for settings that may be absent. -/
def settingsField (name : String) : Option Settings →
    Except Toml.Unwritable (List (String × Toml))
  | some settings => do
      let table ← settings.toToml
      .ok [(name, table)]
  | none => .ok []

/-- The fields of the document of a configuration. -/
def toFields (c : Config) : Except Toml.Unwritable (List (String × Toml)) := do
  let storage ← settingsField "storage" c.storage
  let metrics ← settingsField "metrics" c.metrics
  let scaling ← settingsField "scaling" c.scaling
  let events ← settingsField "events" c.events
  let resync ← Toml.ofInt c.resyncPeriodSecs.toNat
  let downscale ← Toml.ofInt c.downscaleStabilizationSecs.toNat
  let workers ← Toml.ofInt c.workers.toNat
  let store ← c.store.toToml
  .ok (storage ++ metrics ++ scaling ++ events ++
    [("resync_period_secs", resync), ("tolerance", .float c.tolerance),
      ("downscale_stabilization_secs", downscale), ("workers", workers), ("store", store)])

def render (c : Config) : Except ConfigError String :=
  match c.toFields with
  | .ok fields => .ok (Toml.text fields)
  | .error e => .error (.unrenderable e.message)

/-- The tolerance, if the document gives it as a double. -/
def floatTolerance? (fields : List (String × Toml)) : Option Float :=
  match fields.lookup "tolerance" with
  | some (.float x) => some x
  | _ => none

def ofFields (fields : List (String × Toml)) : Except DecodeError Config :=
  match floatTolerance? fields with
  -- JSON has no doubles that are infinite or no number, so the tolerance is kept out of it
  | some x => do
      let others := fields.filter fun field => field.1 != "tolerance"
      let c ← decoder Dialect.file (Toml.toJson (.table others)).canonical
      .ok { c with tolerance := x }
  | none => decoder Dialect.file (Toml.toJson (.table fields)).canonical

/-- The configuration that a text within some limits holds, in range or not. -/
def ofText (limits : Toml.Limits) (text : String) : Except ConfigError Config :=
  match Toml.parse? limits text with
  | none => .error .unparsable
  | some fields =>
      match ofFields fields with
      | .ok c => .ok c
      | .error _ => .error .unparsable

/-- The valid configuration that a text within some limits holds. -/
def parseWithin (limits : Toml.Limits) (text : String) : Except ConfigError Config := do
  let c ← ofText limits text
  c.validate
  .ok c

/-- The valid configuration that a text within the standard limits holds. -/
def parse (text : String) : Except ConfigError Config := parseWithin .standard text

end Config

end Autoscaling
