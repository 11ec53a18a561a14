/-!
# Configuration errors

Why a configuration cannot be used, and the wording of it.
-/

namespace Autoscaling

/-- Why a configuration cannot be used. -/
inductive ConfigError where
  /-- the file cannot be read -/
  | unreadable (cause : String)
  /-- the text is not a configuration -/
  | unparsable
  /-- the configuration has no text -/
  | unrenderable (reason : String)
  /-- a client that every configuration names is not named -/
  | missing (client : String)
  /-- the settings of a backend are not what it expects -/
  | undecodable (typeId reason : String)
  /-- a value is out of its range -/
  | invalid (reason : String)
  deriving DecidableEq

namespace ConfigError

/-- The wording of an error.  Of a text that is not a configuration it says no more than that; of
a file that cannot be read the cause is told apart. -/
def message : ConfigError → String
  | unreadable cause => "failed to read config: " ++ cause
  | unparsable => "failed to parse config"
  | unrenderable reason => "failed to render config: " ++ reason
  | missing client => "no " ++ client ++ " client specified"
  | undecodable typeId reason => "invalid config for " ++ typeId ++ ": " ++ reason
  | invalid reason => "invalid config: " ++ reason

end ConfigError

end Autoscaling
