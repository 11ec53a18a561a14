import Autoscaling.Autoscaler.Json
import Autoscaling.Sim.Provider

/-!
# Built-in backends

Three backends come with the hub: autoscalers declared in the configuration itself, events that
are only logged, and the simulation of metrics and scaling.
-/

namespace Autoscaling

namespace Inline

variable {β : Type}

/-- The type id of autoscalers declared in the configuration. -/
def typeId : String := "inline"

/-- The settings: the declared autoscalers. -/
structure Config where
  autoscalers : List Spec
  deriving BEq, Inhabited

namespace Config

def toJson (c : Config) : Json := .obj [("autoscalers", .ofList Spec.toJson c.autoscalers)]

def decoder : Decoder Config :=
  (Config.mk <$> Fields.field "autoscalers" (Decoder.list Spec.decoder)).decoder "InlineConfig"

end Config

/-- Always yields the same specifications and takes no note of statuses. -/
def client (autoscalers : List Spec) : StorageClient β where
  load s := (.ok autoscalers, s)
  statusUpdated _ s := s
  intervalMillis := none

/-- Makes the client of settings that declare something. -/
def factory : Factory β StorageClient := fun settings s =>
  match settings.decode Config.decoder with
  | .error e => (.error (.ofConfigError .storage e), s)
  | .ok config =>
      if config.autoscalers.isEmpty then
        (.error (.invalidConfig .storage typeId "no autoscalers specified"), s)
      else (.ok (client config.autoscalers), s)

end Inline

namespace EventLog

variable {β : Type}

/-- The type id of events that are only logged. -/
def typeId : String := "log"

/-- Takes every event. -/
def client : EventClient β where
  create _ _ s := (.ok (), s)

/-- Makes the client, whatever the settings. -/
def factory : Factory β EventClient := fun _ s => (.ok client, s)

end EventLog

/-- The registrations of the built-in backends, with the place of what the two factories of the
simulation share. -/
def builtins {β : Type} (place : Place β Sim.Shared) : List (Registration β) :=
  [.storage Inline.typeId Inline.factory,
    .events EventLog.typeId EventLog.factory,
    .metrics Sim.typeId (Sim.metricsFactory place),
    .scaling Sim.typeId (Sim.scalingFactory place)]

end Autoscaling
