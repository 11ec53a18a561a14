import Autoscaling.Config.Error
import Autoscaling.Decode.Fields

/-!
# Backend settings

A backend is chosen by a type id, and its settings are a payload that only it understands.  An
absent payload is the same as `null`.
-/

namespace Autoscaling

/-- A payload for the backend of a type id. -/
structure Settings where
  typeId : String
  payload : Payload
  deriving BEq, ReflBEq, Inhabited

namespace Settings

/-- The written form; an absent payload is left out. -/
def toJson (s : Settings) : Json :=
  .obj (("type", .str s.typeId) ::
    if s.payload.isNull then [] else [("config", s.payload.json)])

def decoder : Decoder Settings :=
  (Settings.mk <$> Fields.field "type" Decoder.text
    <*> Fields.withDefault "config" Decoder.payload Payload.null).decoder "TypedConfig"

/-- The payload as data of a type. -/
def decode {α : Type} (s : Settings) (decoder : Decoder α) : Except ConfigError α :=
  match decoder Dialect.json s.payload.json with
  | .ok x => .ok x
  | .error error => .error (.undecodable s.typeId error.message)

end Settings

end Autoscaling
