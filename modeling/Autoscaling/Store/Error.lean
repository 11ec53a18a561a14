/-!
# Refusals of the store

The causes for which the store refuses a request, each with the words that say what it is about.
-/

namespace Autoscaling

/-- Why the store refuses a request. -/
inductive StateError where
  | notFound (what : String)
  | alreadyExists (what : String)
  | conflict (what : String)
  | invalid (what : String)
  deriving DecidableEq, Inhabited

namespace StateError

def message : StateError → String
  | notFound what => "autoscaler not found: " ++ what
  | alreadyExists what => "autoscaler already exists: " ++ what
  | conflict what => "conflict: " ++ what
  | invalid what => "invalid autoscaler: " ++ what

end StateError

end Autoscaling
