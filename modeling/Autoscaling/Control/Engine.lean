import Autoscaling.Control.Site

/-!
# What the engine asks

The scaling engine asks for metrics by name and selector, and for scale by name.  Each question is
taken back to the stored autoscaler, whose backend settings go to the client with it.
-/

namespace Autoscaling

/-- The scale of a target as the engine sees it. -/
structure TargetScale where
  key : Key
  desired : UInt32
  current : UInt32
  /-- carries the current number of replicas -/
  selector : Selector
  deriving BEq, Inhabited

namespace Spec

/-- The backend settings for a metric: those of the first one of its name. -/
def metricSettings? (s : Spec) (metric : String) : Option Settings :=
  match s.metrics.find? fun m => m.name == metric with
  | some m => m.config
  | none => none

end Spec

namespace Site

variable {β : Type}

def lookup (k : Key) : Operation (Site β) ProviderError Autoscaler := fun s =>
  match s.store.get k with
  | .ok a => (.ok a, s)
  | .error e => (.error (.state e), s)

/-- The values of a metric for an autoscaler. -/
def metricOf (metrics : MetricsClient β) (metric : String) (k : Key) :
    Operation (Site β) ProviderError (List Int64) := fun s =>
  match lookup k s with
  | (.error e, s) => (.error e, s)
  | (.ok a, s) => call (metrics.getMetric metric k (a.spec.metricSettings? metric)) s

/-- The values of a metric for the autoscaler that a selector carries the name of.  A selector
that carries no name aborts. -/
def externalMetric (metrics : MetricsClient β) (metric ns : String) (selector : Selector)
    (s : Site β) : Except Abort (Except ProviderError (List Int64) × Site β) := do
  let name ← Carrier.autoscaler.decode selector
  .ok (metricOf metrics metric ⟨ns, name⟩ s)

/-- The scale that a backend reports, if both halves are there. -/
def targetScale (k : Key) (scale : Scale) : Except ProviderError TargetScale :=
  match scale.desired, scale.current with
  | some desired, some current => .ok ⟨k, desired, current, Carrier.encodeReplicas current⟩
  | none, _ => .error (.state (.invalid ("scale for " ++ k.text ++ " has no spec")))
  | some _, none => .error (.state (.invalid ("scale for " ++ k.text ++ " has no status")))

def getScale (scaling : ScalingClient β) (k : Key) :
    Operation (Site β) ProviderError TargetScale := fun s =>
  match lookup k s with
  | (.error e, s) => (.error e, s)
  | (.ok a, s) =>
      match call (scaling.getScale k a.spec.target) s with
      | (.error e, s) => (.error e, s)
      | (.ok scale, s) => (targetScale k scale, s)

/-- Set how many instances the target of a stored autoscaler should have. -/
def setScale (scaling : ScalingClient β) (k : Key) (desired : UInt32) :
    Operation (Site β) ProviderError Unit := fun s =>
  match lookup k s with
  | (.error e, s) => (.error e, s)
  | (.ok a, s) => call (scaling.setScale k a.spec.target desired) s

/-- Pass an event on, if there is a receiver.  An event that is not received is lost. -/
def record (events : Option (EventClient β)) (k : Key) (event : Event) (s : Site β) : Site β :=
  match events with
  | some client => { s with outside := (client.create k event s.outside).2 }
  | none => s

end Site

end Autoscaling
