import Autoscaling.Config.Error
import Autoscaling.Store.Error
import Autoscaling.Text.Quoted

/-!
# Provider errors

Why a client cannot be made from its settings, or a call through one of them failed.
-/

namespace Autoscaling

/-- The four places where the hub meets a backend. -/
inductive Seam where
  | storage
  | metrics
  | scaling
  | events
  deriving DecidableEq, Inhabited

namespace Seam

def text : Seam → String
  | storage => "storage"
  | metrics => "metrics"
  | scaling => "scaling"
  | events => "events"

end Seam

/-- A failure inside of a backend. -/
structure BackendError where
  /-- what failed, then what made it fail, and so on -/
  causes : List String
  deriving DecidableEq, Inhabited

namespace BackendError

/-- A failure that nothing else made happen. -/
def ofText (s : String) : BackendError := ⟨[s]⟩

/-- The wording of a failure and of its causes. -/
def message (e : BackendError) : String := ": ".intercalate e.causes

end BackendError

/-- Why a client cannot be had or does not answer. -/
inductive ProviderError where
  /-- nothing is registered for the type id -/
  | notRegistered (seam : Seam) (typeId : String)
  /-- two registrations have the same type id -/
  | registeredTwice (seam : Seam) (typeId : String)
  /-- the configuration does not choose a backend -/
  | unconfigured (seam : Seam)
  /-- the settings are not what the backend expects -/
  | invalidConfig (seam : Seam) (typeId reason : String)
  /-- the backend failed -/
  | backend (error : BackendError)
  /-- the store refused -/
  | state (error : StateError)
  deriving DecidableEq

namespace ProviderError

/-- The error for settings that cannot be decoded, or that are invalid in another way. -/
def ofConfigError (seam : Seam) : ConfigError → ProviderError
  | .undecodable typeId reason => invalidConfig seam typeId reason
  | other => invalidConfig seam "" other.message

def isNotRegistered : ProviderError → Bool
  | notRegistered .. => true
  | _ => false

def message : ProviderError → String
  | notRegistered seam typeId =>
      "no " ++ seam.text ++ " provider registered for type " ++ quoted typeId
  | registeredTwice seam typeId =>
      seam.text ++ " provider " ++ quoted typeId ++ " registered more than once"
  | unconfigured seam => "no " ++ seam.text ++ " provider configured"
  | invalidConfig seam typeId reason =>
      "invalid " ++ seam.text ++ " config for " ++ quoted typeId ++ ": " ++ reason
  | backend error => "backend error: " ++ error.message
  | state error => error.message

end ProviderError

end Autoscaling
