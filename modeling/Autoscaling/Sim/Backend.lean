import Autoscaling.Abort
import Autoscaling.Autoscaler.Basic
import Autoscaling.Decimal.Truncate
import Autoscaling.Operation
import Autoscaling.Sim.Config

/-!
# The simulation

A simulated autoscaler has a curve of loads and a number of instances that share the load.  The
metric is the average load of an instance as a percentage of the load that fills it, in
thousandths.  Scaling sets the number of instances, so it moves the metric.
-/

namespace Autoscaling

/-- Why the simulation cannot be made, or does not answer. -/
inductive SimError where
  | namelessMetric
  | noTargets
  | namelessTarget (ns : String)
  | maxLoad (key : Key)
  | noLoad (key : Key)
  | emptyTimespan (key : Key)
  /-- an autoscaler that is not simulated -/
  | unknownTarget (key : Key)
  /-- another metric than the simulated one -/
  | otherMetric (given expected : String)
  /-- there is no simulation yet -/
  | notConfigured
  /-- it does not answer at all: the one who asks ends -/
  | abort (a : Abort)
  deriving DecidableEq

namespace SimError

def message : SimError → String
  | namelessMetric => "metric name must be provided"
  | noTargets => "no autoscaler configurations specified"
  | namelessTarget ns => "autoscaler name cannot be empty (namespace " ++ quoted ns ++ ")"
  | maxLoad key => "max load per instance must be > 0 for " ++ key.text
  | noLoad key => "no load specified for " ++ key.text
  | emptyTimespan key => "timespan cannot be 0 for " ++ key.text
  | unknownTarget key => "sim autoscaler " ++ key.text ++ " not configured"
  | otherMetric given expected => "invalid metric name: " ++ given ++ " != " ++ expected
  | notConfigured => "sim metrics provider has not been configured"
  | abort a => a.message

end SimError

namespace Sim

/-! ## The curve -/

/-- The length of a curve in milliseconds, in a word of 64 bits.  No sum is checked, so what goes
beyond the word is lost. -/
def wordTotal : List Segment → UInt64
  | [] => 0
  | s :: rest => s.timespanMillis + wordTotal rest

/-- The segment that is active so many milliseconds after the start of the curve. -/
def segmentAt? : Nat → List Segment → Option Segment
  | _, [] => none
  | offset, s :: rest =>
      if offset < s.timespanMillis.toNat then some s
      else segmentAt? (offset - s.timespanMillis.toNat) rest

/-- What is simulated for one autoscaler. -/
structure Target where
  maxLoad : Float
  curve : List Segment
  /-- the length of the curve in milliseconds, as far as it fits the word -/
  total : UInt64
  deriving Inhabited

/-- The load after so many nanoseconds, when the curve is repeated.  Without a length there is
nothing to repeat, and the one who asks ends. -/
def Target.loadAt (t : Target) (nanos : Nat) : Except Abort Float :=
  if t.total = 0 then .error .zeroDivisor
  else
    -- only whole milliseconds count, and a curve of its length has an active segment
    match segmentAt? (nanos / 1000000 % t.total.toNat) t.curve with
    | some s => .ok s.load
    | none => .ok ((t.curve.getLast?.map Segment.load).getD 0.0)

/-! ## The metric -/

/-- The arithmetic in which the metric is computed. -/
structure Arithmetic (α : Type) where
  /-- a load -/
  ofFloat : Float → α
  ofNat : Nat → α
  mul : α → α → α
  div : α → α → α
  /-- the whole part -/
  truncate : α → Int64

def Arithmetic.double : Arithmetic Float where
  ofFloat := id
  ofNat n := Float.ofNat n
  mul := (· * ·)
  div := (· / ·)
  truncate := Autoscaling.truncate

/-- The percentage of the greatest load that each of `instances` bears, in thousandths: whole
percents only.  Of a product beyond the word, too, what does not fit is lost. -/
def Arithmetic.sample {α : Type} (a : Arithmetic α) (load : α) (instances : Nat) (maxLoad : α) :
    Int64 :=
  a.truncate (a.div (a.mul (a.ofNat 100) (a.div load (a.ofNat instances))) maxLoad) * 1000

end Sim

/-! ## The backend -/

/-- The state of the simulation. -/
structure Sim where
  metricName : String
  targets : OrderedMap Key Sim.Target
  /-- how many instances every simulated autoscaler has -/
  instances : OrderedMap Key UInt32
  /-- nanoseconds since the start -/
  elapsed : Nat
  deriving Inhabited

namespace Sim

def TargetConfig.check (t : TargetConfig) : Except SimError (Key × Target) :=
  let key : Key := ⟨t.ns, t.name⟩
  if t.name.isEmpty then .error (.namelessTarget t.ns)
  else if t.maxLoad ≤ 0.0 then .error (.maxLoad key)
  else if t.curve.isEmpty then .error (.noLoad key)
  else if t.curve.any fun s => s.timespanMillis == 0 then .error (.emptyTimespan key)
  else .ok (key, ⟨t.maxLoad, t.curve, wordTotal t.curve⟩)

/-- File the settings of the autoscalers, up to the first invalid ones; the last ones of a key
count. -/
def fileTargets : List TargetConfig → OrderedMap Key Target →
    Except SimError (OrderedMap Key Target)
  | [], filed => .ok filed
  | t :: rest, filed => do
      let (key, target) ← t.check
      fileTargets rest (filed.insert key target)

/-- The simulation of some settings, which starts with one instance of everything. -/
def create (c : Config) : Except SimError Sim :=
  if c.metricName.isEmpty then .error .namelessMetric
  else if c.targets.isEmpty then .error .noTargets
  else do
    let targets ← fileTargets c.targets .empty
    .ok ⟨c.metricName, targets, .ofList (targets.keys.map fun k => (k, 1)), 0⟩

def target (s : Sim) (k : Key) : Except SimError Target :=
  match s.targets.find? k with
  | some t => .ok t
  | none => .error (.unknownTarget k)

def instancesOf (s : Sim) (k : Key) : Except SimError UInt32 := do
  let _ ← s.target k
  .ok ((s.instances.find? k).getD 0)

/-- The values of the metric after so many nanoseconds, in some arithmetic: none without instances,
otherwise one. -/
def valuesIn {α : Type} (a : Arithmetic α) (s : Sim) (k : Key) (nanos : Nat) :
    Except SimError (List Int64) := do
  let t ← s.target k
  let n ← s.instancesOf k
  if n = 0 then .ok []
  else do
    let load ← (t.loadAt nanos).mapError .abort
    .ok [a.sample (a.ofFloat load) n.toNat (a.ofFloat t.maxLoad)]

def valuesAt (s : Sim) (k : Key) (nanos : Nat) : Except SimError (List Int64) :=
  s.valuesIn .double k nanos

def getMetric (s : Sim) (metric : String) (k : Key) : Except SimError (List Int64) :=
  if metric ≠ s.metricName then .error (.otherMetric metric s.metricName)
  else s.valuesAt k s.elapsed

def setScale (k : Key) (desired : UInt32) : Operation Sim SimError Unit := fun s =>
  match s.target k with
  | .ok _ => (.ok (), { s with instances := s.instances.insert k desired })
  | .error e => (.error e, s)

/-- Let time go by. -/
def pass (s : Sim) (nanos : Nat) : Sim := { s with elapsed := s.elapsed + nanos }

end Sim

end Autoscaling
