import Autoscaling.Autoscaler.Basic
import Autoscaling.Operation
import Autoscaling.Provider.Error
import Autoscaling.Provider.Event

/-!
# Clients

A client is what a backend offers at one of the seams: operations on the state of the world
outside of the hub.  Several clients may work on one state, which is how a backend that both
measures and scales is described.
-/

namespace Autoscaling

/-- A source of declared autoscalers. -/
structure StorageClient (β : Type) where
  /-- the specifications that are declared now -/
  load : Operation β BackendError (List Spec)
  /-- take note of a status that was written -/
  statusUpdated : Autoscaler → β → β
  /-- milliseconds between two loads; none if one load is enough -/
  intervalMillis : Option UInt64

/-- A source of metric values. -/
structure MetricsClient (β : Type) where
  /-- the values of a metric for an autoscaler, found by the settings that it declares -/
  getMetric : (metric : String) → Key → Option Settings → Operation β BackendError (List Int64)

/-- How many instances a target is said to have.  Either half may be missing from an answer. -/
structure Scale where
  desired : Option UInt32
  current : Option UInt32
  deriving DecidableEq, Inhabited

/-- A way to scale targets. -/
structure ScalingClient (β : Type) where
  /-- the scale of an autoscaler's target -/
  getScale : Key → Option Settings → Operation β BackendError Scale
  /-- set how many instances the target of an autoscaler should have -/
  setScale : Key → Option Settings → UInt32 → Operation β BackendError Unit

/-- A receiver of events. -/
structure EventClient (β : Type) where
  create : Key → Event → Operation β BackendError Unit

end Autoscaling
