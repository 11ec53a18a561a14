import Autoscaling.Command.Respond

/-!
# The command line

Reads the file that the arguments name, prints the response and sets the exit code.  Running a hub
advances its tasks with the clock until the process is interrupted.
-/

namespace Autoscaling

namespace Request

/-- The cause for which a file cannot be read: what the system says, and its number. -/
def causeOf : IO.Error → String
  | .noFileOrDirectory .. => noSuchFile
  | .permissionDenied _ code details => details ++ " (os error " ++ natText code.toNat ++ ")"
  | .inappropriateType _ code details => details ++ " (os error " ++ natText code.toNat ++ ")"
  | other => toString other

/-- What the file at a path holds. -/
def readContent (path : String) : IO FileContent := do
  try
    return .ok (← IO.FS.readBinFile path)
  catch e =>
    return .error (causeOf e)

/-- Print a response and answer with its exit code. -/
def conclude (r : Response) : IO UInt32 := do
  (← IO.getStdout).putStr r.stdout
  (← IO.getStderr).putStr r.stderr
  return r.exitCode

/-- Advance tasks with the clock, a tenth of a second at a time. -/
partial def keepRunning (tasks : Tasks BuiltinWorld) : IO UInt32 := do
  IO.sleep 100
  keepRunning (elapse tasks 100)

def respond (arguments : List String) : IO UInt32 := do
  match Request.ofArguments arguments with
  | none => conclude .usage
  | some (.check path) => conclude (respondToCheck (← readContent path))
  | some (.run path workers) =>
      match prepare (← readContent path) workers with
      | .error e => conclude (.failure e)
      | .ok tasks => keepRunning tasks

end Request

end Autoscaling

def main (arguments : List String) : IO UInt32 := Autoscaling.Request.respond arguments
