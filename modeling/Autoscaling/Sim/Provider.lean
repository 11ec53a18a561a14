import Autoscaling.Provider.Registry
import Autoscaling.Sim.Backend

/-!
# The simulation as a backend

A client of a simulation holds on to the simulation that it was made for, which has its place in the
state outside of the hub.  Which one that is, is a matter of what the two factories share: the first
metrics settings that are accepted make a simulation and put its number into a slot, and later ones
get the simulation of the slot, whatever they say.  Scaling works on the simulation of the slot.
-/

namespace Autoscaling

namespace Sim

variable {β : Type}

/-- The type id of the simulation. -/
def typeId : String := "sim"

/-- An error of the simulation as a failure of a backend.  The clients of the hub answer or fail and
are not described any further, so an abort is a failure with its wording. -/
def failure {α : Type} : Except SimError α → Except BackendError α
  | .ok x => .ok x
  | .error e => .error (.ofText e.message)

/-- Ask the simulation that is in its place. -/
def ask {α : Type} (question : Sim → Except SimError α) :
    Operation (Option Sim) BackendError α := fun slot =>
  match slot with
  | some s => (failure (question s), slot)
  | none => (failure (.error .notConfigured), slot)

/-- Have the simulation that is in its place do something. -/
def act {α : Type} (operation : Operation Sim SimError α) :
    Operation (Option Sim) BackendError α := fun slot =>
  match slot with
  | some s =>
      let (outcome, s) := operation s
      (failure outcome, some s)
  | none => (failure (.error .notConfigured), slot)

/-- The metrics half. -/
def metricsClient (place : Place β (Option Sim)) : MetricsClient β where
  getMetric metric k _ := place.operate (ask fun s => s.getMetric metric k)

/-- The scaling half. -/
def scalingClient (place : Place β (Option Sim)) : ScalingClient β where
  getScale k _ := place.operate (ask fun s => do
    let n ← s.instancesOf k
    .ok ⟨some n, some n⟩)
  setScale k _ desired := place.operate (act (setScale k desired))

/-! ## What the factories share -/

/-- The simulations that were made, by their numbers, and the one that is handed out. -/
structure Shared where
  sims : OrderedMap Nat Sim
  /-- the number of the next simulation -/
  next : Nat
  /-- the number of the simulation that is handed out, if there is one -/
  slot : Option Nat
  deriving Inhabited

namespace Shared

def empty : Shared := ⟨.empty, 0, none⟩

/-- Put a new simulation into the slot. -/
def install (shared : Shared) (s : Sim) : Shared :=
  ⟨shared.sims.insert shared.next s, shared.next + 1, some shared.next⟩

/-- The place of the simulation of a number. -/
def cell (id : Nat) : Place Shared (Option Sim) where
  get shared := shared.sims.find? id
  put
    | some s, shared => { shared with sims := shared.sims.insert id s }
    | none, shared => { shared with sims := shared.sims.erase id }

/-- Let time go by for all simulations. -/
def pass (shared : Shared) (nanos : Nat) : Shared :=
  { shared with sims := shared.sims.mapValues fun _ s => s.pass nanos }

end Shared

/-- The place of the simulation of a number, inside of what is outside. -/
def simulation (place : Place β Shared) (id : Nat) : Place β (Option Sim) :=
  place.within (Shared.cell id)

/-- Makes the metrics half of the simulation in the slot, and the simulation if there is none. -/
def metricsFactory (place : Place β Shared) : Factory β MetricsClient := fun settings b =>
  let shared := place.get b
  match shared.slot with
  | some id => (.ok (metricsClient (simulation place id)), b)
  | none =>
      match settings.decode Config.decoder with
      | .error e => (.error (.ofConfigError .metrics e), b)
      | .ok config =>
          match create config with
          | .error e => (.error (.invalidConfig .metrics typeId e.message), b)
          | .ok s =>
              (.ok (metricsClient (simulation place shared.next)), place.put (shared.install s) b)

/-- Makes the scaling half of the simulation in the slot. -/
def scalingFactory (place : Place β Shared) : Factory β ScalingClient := fun _ b =>
  match (place.get b).slot with
  | some id => (.ok (scalingClient (simulation place id)), b)
  | none => (.error (.invalidConfig .scaling typeId SimError.notConfigured.message), b)

end Sim

end Autoscaling
