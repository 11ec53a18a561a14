import Autoscaling.Command.Request
import Autoscaling.Config.File
import Autoscaling.Control.Tasks
import Autoscaling.Json.Printer
import Autoscaling.Provider.Builtin
import Autoscaling.View.Json

/-!
# Responses to the command line

Checking a configuration reads it, makes its backends, loads what it declares into a store and
prints the views of the store.  Running one prepares the background tasks.  What fails is reported
on the error stream with its cause, if it has one, and nothing is printed.
-/

namespace Autoscaling

/-- The outside of a hub with built-in backends only: what the factories of the simulation share. -/
abbrev BuiltinWorld := Sim.Shared

/-- What a file holds, or why it cannot be read. -/
abbrev FileContent := Except String ByteArray

/-- The cause for which a file that is not there cannot be read. -/
def noSuchFile : String := "No such file or directory (os error 2)"

/-- The cause for which a file that is no text cannot be read. -/
def notText : String := "stream did not contain valid UTF-8"

/-- Why a request fails. -/
inductive CommandError where
  | config (error : ConfigError)
  | provider (error : ProviderError)
  | sync (error : SyncError)
  deriving DecidableEq

namespace CommandError

def message : CommandError → String
  | config error => error.message
  | provider error => error.message
  | sync error => error.message

/-- The cause of an error, where it is told apart. -/
def cause? : CommandError → Option String
  | config (.unreadable cause) => some cause
  | _ => none

/-- An error and its cause on the error stream. -/
def report (e : CommandError) : String :=
  "Error: " ++ e.message ++
    match e.cause? with
    | some cause => "\n\nCaused by:\n    " ++ cause ++ "\n"
    | none => "\n"

end CommandError

/-- What a process prints and ends with. -/
structure Response where
  exitCode : UInt32
  stdout : String
  stderr : String
  deriving DecidableEq

namespace Response

def success (stdout : String) : Response := ⟨0, stdout, ""⟩

def failure (e : CommandError) : Response := ⟨1, "", e.report⟩

def usage : Response := ⟨2, "", ""⟩

end Response

namespace Request

/-- The valid configuration in a file. -/
def loadConfig (content : FileContent) : Except CommandError Config :=
  match content with
  | .error cause => .error (.config (.unreadable cause))
  | .ok bytes =>
      match String.fromUTF8? bytes with
      | none => .error (.config (.unreadable notText))
      | some text => (Config.parse text).mapError .config

/-- The valid configuration in a file, with another number of workers if one is given. -/
def loadConfigWith (content : FileContent) : Option UInt64 → Except CommandError Config
  | none => loadConfig content
  | some workers => do
      let c ← loadConfig content
      let c := { c with workers := workers }
      c.validate.mapError .config
      .ok c

/-- The backends of a configuration among the built-in ones, and the outside with them. -/
def resolveBuiltin (c : Config) : Except CommandError (Backends BuiltinWorld × BuiltinWorld) := do
  let registry ← (Registry.build (builtins Place.whole)).mapError .provider
  match Backends.resolve registry c .empty with
  | (.ok backends, outside) => .ok (backends, outside)
  | (.error e, _) => .error (.provider e)

/-- The views of what a configuration declares. -/
def declaredViews (c : Config) : Except CommandError (List View) := do
  let (backends, outside) ← resolveBuiltin c
  match Site.syncOnce backends.storage (Site.start c outside) with
  | (.ok (), s) => .ok (s.store.list everyNamespace)
  | (.error e, _) => .error (.sync e)

/-- The views of what the configuration in a file declares. -/
def checkFile (content : FileContent) : Except CommandError (List View) := do
  let c ← loadConfig content
  declaredViews c

def respondToCheck (content : FileContent) : Response :=
  match checkFile content with
  | .ok views => .success ((Json.ofList View.toJson views).pretty ++ "\n")
  | .error e => .failure e

/-- Prepare the tasks of the configuration in a file. -/
def prepare (content : FileContent) (workers : Option UInt64) :
    Except CommandError (Tasks BuiltinWorld) := do
  let c ← loadConfigWith content workers
  let (backends, outside) ← resolveBuiltin c
  .ok (Tasks.start c backends outside)

/-- Let time go by for the simulations and then for the tasks. -/
def elapse (tasks : Tasks BuiltinWorld) (millis : Nat) : Tasks BuiltinWorld :=
  let outside := tasks.site.outside.pass (1000000 * millis)
  { tasks with site := { tasks.site with outside := outside } }.advance millis

end Request

end Autoscaling
