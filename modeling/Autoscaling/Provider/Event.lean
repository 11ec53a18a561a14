import Autoscaling.Decode.Fields

/-!
# Events

What the scaling engine has to say about an autoscaler.
-/

namespace Autoscaling

/-- How serious an event is. -/
inductive EventType where
  | normal
  | warning
  deriving DecidableEq, Inhabited

namespace EventType

def text : EventType → String
  | normal => "Normal"
  | warning => "Warning"

def names : List (String × EventType) := [normal, warning].map fun t => (t.text, t)

def toJson (t : EventType) : Json := .str t.text

def decoder : Decoder EventType := Decoder.variant names

end EventType

/-- An event about an autoscaler. -/
structure Event where
  reason : String
  message : String
  /-- seconds since the epoch -/
  firstTimestamp : UInt64
  /-- seconds since the epoch -/
  lastTimestamp : UInt64
  count : UInt32
  type : EventType
  action : String
  deriving DecidableEq, Inhabited

namespace Event

def toJson (e : Event) : Json :=
  .obj [
    ("reason", .str e.reason),
    ("message", .str e.message),
    ("first_timestamp", .ofUInt64 e.firstTimestamp),
    ("last_timestamp", .ofUInt64 e.lastTimestamp),
    ("count", .ofUInt32 e.count),
    ("event_type", e.type.toJson),
    ("action", .str e.action)]

def decoder : Decoder Event :=
  (Event.mk <$> Fields.field "reason" Decoder.text
    <*> Fields.field "message" Decoder.text
    <*> Fields.field "first_timestamp" Decoder.u64
    <*> Fields.field "last_timestamp" Decoder.u64
    <*> Fields.field "count" Decoder.u32
    <*> Fields.field "event_type" EventType.decoder
    <*> Fields.field "action" Decoder.text).decoder "Event"

/-- A warning that happened once, now. -/
def warning (now : UInt64) (reason message : String) : Event :=
  ⟨reason, message, now, now, 1, .warning, ""⟩

end Event

end Autoscaling
