/-!
# Aborts

Some requests are not refused but end the task that makes them, because what they ask for can only
come from a defect: a selector that no carrier made, a bound beyond what queues and permits can
count, or a time modulo nothing.
-/

namespace Autoscaling

/-- Why a task ends. -/
inductive Abort where
  /-- a selector with other than one label -/
  | selectorFormat (text : String)
  /-- a selector without the label of its carrier -/
  | selectorLabel (expected text : String)
  /-- a selector whose label is no number of replicas -/
  | replicasValue (text : String)
  /-- a queue or a number of permits beyond `Abort.greatestCount` -/
  | tooManyPermits
  /-- a remainder by zero -/
  | zeroDivisor
  deriving DecidableEq

namespace Abort

/-- The greatest length of a queue and the greatest number of permits: `2 ^ 61 - 1`. -/
def greatestCount : Nat := 2305843009213693951

def message : Abort → String
  | selectorFormat text => "unexpected selector format: " ++ text
  | selectorLabel expected text => "unexpected selector label, expected " ++ expected ++ ": " ++ text
  | replicasValue text => "unexpected replicas selector value: " ++ text
  | tooManyPermits =>
      "a semaphore may not have more than MAX_PERMITS permits (2305843009213693951)"
  | zeroDivisor => "attempt to calculate the remainder with a divisor of zero"

end Abort

end Autoscaling
