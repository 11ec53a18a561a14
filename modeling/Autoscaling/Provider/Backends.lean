import Autoscaling.Config.Basic
import Autoscaling.Provider.Registry

/-!
# Backends

The clients that a configuration chooses.  They are made in a fixed order, metrics before scaling,
so that a backend may build its scaling half on its metrics half; the first failure ends it.
-/

namespace Autoscaling

/-- The clients of every seam. -/
structure Backends (β : Type) where
  storage : StorageClient β
  metrics : MetricsClient β
  scaling : ScalingClient β
  events : Option (EventClient β)

namespace Backends

variable {β : Type}

/-- Make a client that every configuration must choose. -/
def required {client : Type → Type} (seam : Seam) (make : Factory β client) :
    Option Settings → Operation β ProviderError (client β)
  | some settings => make settings
  | none => fun s => (.error (.unconfigured seam), s)

/-- Make a client that a configuration need not choose. -/
def optional {client : Type → Type} (make : Factory β client) :
    Option Settings → Operation β ProviderError (Option (client β))
  | some settings => fun s =>
      let (made, s) := make settings s
      (some <$> made, s)
  | none => fun s => (.ok none, s)

/-- Make the clients that a configuration chooses. -/
def resolve (r : Registry β) (config : Config) : Operation β ProviderError (Backends β) := fun s =>
  match required .storage r.resolveStorage config.storage s with
  | (.error e, s) => (.error e, s)
  | (.ok storage, s) =>
    match required .metrics r.resolveMetrics config.metrics s with
    | (.error e, s) => (.error e, s)
    | (.ok metrics, s) =>
      match required .scaling r.resolveScaling config.scaling s with
      | (.error e, s) => (.error e, s)
      | (.ok scaling, s) =>
        match optional r.resolveEvents config.events s with
        | (.error e, s) => (.error e, s)
        | (.ok events, s) => (.ok ⟨storage, metrics, scaling, events⟩, s)

end Backends

end Autoscaling
