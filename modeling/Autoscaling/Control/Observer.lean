import Autoscaling.Control.Engine

/-!
# Observation

An observation looks at one autoscaler: it asks for the scale of its target and samples its
metrics, then writes the observed numbers of replicas back when they are not those of the view.
What fails is reported as a warning.  A pass observes every stored autoscaler.

The view that is observed may be older than the store.  An observation takes the numbers of
replicas from the answer of the backend and everything else that it writes from the view.
-/

namespace Autoscaling

/-- How an observation ended. -/
inductive Observation where
  /-- the scale is not known, or the status was refused -/
  | failed
  /-- the view has the observed numbers already -/
  | unchanged
  /-- the observed numbers were written -/
  | written
  deriving DecidableEq

namespace View

/-- Whether the view has these numbers of replicas. -/
def shows (v : View) (scale : TargetScale) : Bool :=
  v.status.currentReplicas == scale.current && v.status.desiredReplicas == scale.desired

/-- The view with other numbers of replicas. -/
def withScale (v : View) (scale : TargetScale) : View :=
  { v with
    status := { v.status with
      currentReplicas := scale.current
      desiredReplicas := scale.desired } }

end View

namespace Site

variable {β : Type}

/-- Report what failed about a view. -/
def warn (b : Backends β) (now : UInt64) (v : View) (reason : String) (e : ProviderError)
    (s : Site β) : Site β :=
  s.record b.events v.key (.warning now reason e.message)

/-- Sample metrics of a view one after the other.  Answers `none` if a selector aborts. -/
def sample (b : Backends β) (now : UInt64) (v : View) : List View.Metric → Site β →
    Option Unit × Site β
  | [], s => (some (), s)
  | m :: rest, s =>
      match externalMetric b.metrics m.name v.ns m.selector s with
      | .error _ => (none, s)
      | .ok (.ok _, s) => sample b now v rest s
      | .ok (.error e, s) => sample b now v rest (s.warn b now v "FailedGetExternalMetric" e)

/-- Write the observed numbers of replicas back, unless the view has them. -/
def writeBack (b : Backends β) (v : View) (scale : TargetScale) (s : Site β) :
    Observation × Site β :=
  if v.shows scale then (.unchanged, s)
  else
    match s.updateStatus b.storage v.ns (v.withScale scale) with
    | (.ok _, s) => (.written, s)
    | (.error _, s) => (.failed, s)

/-- Observe the autoscaler of a view. -/
def observe (b : Backends β) (now : UInt64) (v : View) (s : Site β) : Observation × Site β :=
  match getScale b.scaling v.key s with
  | (.error e, s) => (.failed, s.warn b now v "FailedGetScale" e)
  | (.ok scale, s) =>
      match sample b now v v.spec.metrics s with
      | (none, s) => (.failed, s)
      | (some (), s) => writeBack b v scale s

/-- Observe the autoscalers of several views, one after the other; how many statuses were
written. -/
def observeViews (b : Backends β) (now : UInt64) : List View → Site β → Nat × Site β
  | [], s => (0, s)
  | v :: rest, s =>
      let (observation, s) := s.observe b now v
      let (written, s) := observeViews b now rest s
      (if observation = .written then written + 1 else written, s)

/-- Observe every stored autoscaler, `workers` of them at a time. -/
def observeAll (b : Backends β) (now : UInt64) (workers : Nat) (s : Site β) :
    Except Abort (Nat × Site β) :=
  -- no workers count as one, and more than can be counted abort
  if Abort.greatestCount < max workers 1 then .error .tooManyPermits
  else .ok (observeViews b now (s.store.list everyNamespace) s)

end Site

end Autoscaling
