import Autoscaling.Provider.Client

/-!
# The registry

Each seam has a table of factories by type id.  The registry is made from a sequence of
registrations and fails on a type id that a seam is given twice.  A factory may look at the state
outside of the hub and change it.
-/

namespace Autoscaling

/-- Makes a client from settings. -/
abbrev Factory (β : Type) (client : Type → Type) :=
  Settings → Operation β ProviderError (client β)

/-- Claims a type id at one seam. -/
inductive Registration (β : Type) where
  | storage (typeId : String) (factory : Factory β StorageClient)
  | metrics (typeId : String) (factory : Factory β MetricsClient)
  | scaling (typeId : String) (factory : Factory β ScalingClient)
  | events (typeId : String) (factory : Factory β EventClient)

namespace Registration

variable {β : Type}

/-- A registration for the storage seam. -/
def storage? : Registration β → Option (String × Factory β StorageClient)
  | storage typeId factory => some (typeId, factory)
  | _ => none

def metrics? : Registration β → Option (String × Factory β MetricsClient)
  | metrics typeId factory => some (typeId, factory)
  | _ => none

def scaling? : Registration β → Option (String × Factory β ScalingClient)
  | scaling typeId factory => some (typeId, factory)
  | _ => none

def events? : Registration β → Option (String × Factory β EventClient)
  | events typeId factory => some (typeId, factory)
  | _ => none

end Registration

/-- The factories of every seam. -/
structure Registry (β : Type) where
  storage : OrderedMap String (Factory β StorageClient)
  metrics : OrderedMap String (Factory β MetricsClient)
  scaling : OrderedMap String (Factory β ScalingClient)
  events : OrderedMap String (Factory β EventClient)

namespace Registry

variable {β : Type}

/-- File factories one after the other, up to the first type id that is filed already. -/
def index {α : Type} (seam : Seam) :
    List (String × α) → OrderedMap String α → Except ProviderError (OrderedMap String α)
  | [], filed => .ok filed
  | (typeId, factory) :: rest, filed =>
      if filed.contains typeId then .error (.registeredTwice seam typeId)
      else index seam rest (filed.insert typeId factory)

/-- The registry of a sequence of registrations.  The seams are checked one after the other. -/
def build (registrations : List (Registration β)) : Except ProviderError (Registry β) := do
  let storage ← index .storage (registrations.filterMap Registration.storage?) .empty
  let metrics ← index .metrics (registrations.filterMap Registration.metrics?) .empty
  let scaling ← index .scaling (registrations.filterMap Registration.scaling?) .empty
  let events ← index .events (registrations.filterMap Registration.events?) .empty
  .ok ⟨storage, metrics, scaling, events⟩

/-- Make a client with the factory of the settings' type id. -/
def resolveIn {client : Type → Type} (seam : Seam)
    (factories : OrderedMap String (Factory β client)) (settings : Settings) :
    Operation β ProviderError (client β) := fun s =>
  match factories.find? settings.typeId with
  | some factory => factory settings s
  | none => (.error (.notRegistered seam settings.typeId), s)

def resolveStorage (r : Registry β) : Factory β StorageClient := resolveIn .storage r.storage

def resolveMetrics (r : Registry β) : Factory β MetricsClient := resolveIn .metrics r.metrics

def resolveScaling (r : Registry β) : Factory β ScalingClient := resolveIn .scaling r.scaling

def resolveEvents (r : Registry β) : Factory β EventClient := resolveIn .events r.events

/-- The type ids of a seam in ascending order. -/
def typeIds (r : Registry β) : Seam → List String
  | .storage => r.storage.keys
  | .metrics => r.metrics.keys
  | .scaling => r.scaling.keys
  | .events => r.events.keys

end Registry

end Autoscaling
