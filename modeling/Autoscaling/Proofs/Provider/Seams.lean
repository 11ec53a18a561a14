import Autoscaling.Ordered.Lemmas
import Autoscaling.Provider.Backends
import Mathlib.Tactic.Common

/-!
# The four seams alike

The four seams differ in the clients that are made at them.  Here these are a family over the seams
(`Seam.Client`), and so are the tables of a registry, the factory that it offers at a seam, and the
settings that a configuration has for one; what holds of every seam can then be said once.

`Registry.noting` is the registry in which every factory notes that it is called and answers as
before, so that it can be read off which factories are called.
-/

namespace Autoscaling

/-! ## Clients -/

namespace Seam

/-- The clients that are made at a seam. -/
abbrev Client : Seam → Type → Type
  | storage => StorageClient
  | metrics => MetricsClient
  | scaling => ScalingClient
  | events => EventClient

/-- The seams in the order in which they are dealt with. -/
def all : List Seam := [storage, metrics, scaling, events]

/-- The seams that are dealt with before one. -/
def earlier : Seam → List Seam
  | storage => []
  | metrics => [storage]
  | scaling => [storage, metrics]
  | events => [storage, metrics, scaling]

theorem eq_or_earlier (a b : Seam) : a = b ∨ a ∈ b.earlier ∨ b ∈ a.earlier := by
  cases a <;> cases b <;> decide

theorem earlier_isPrefix {s seam : Seam} (h : s ∈ seam.earlier ++ [seam]) :
    s.earlier <+: seam.earlier := by
  cases seam <;> cases s <;> revert h <;> decide

theorem earlier_isPrefix_all (seam : Seam) : seam.earlier ++ [seam] <+: all := by
  cases seam <;> decide

/-- A client in a larger world, in which it works on its place only. -/
def clientWithin {σ β : Type} (place : Place σ β) : (seam : Seam) → seam.Client β → seam.Client σ
  | storage, client =>
      ⟨place.operate client.load, fun a s => place.put (client.statusUpdated a (place.get s)) s,
        client.intervalMillis⟩
  | metrics, client =>
      ⟨fun metric k settings => place.operate (client.getMetric metric k settings)⟩
  | scaling, client =>
      ⟨fun k settings => place.operate (client.getScale k settings),
        fun k settings desired => place.operate (client.setScale k settings desired)⟩
  | events, client => ⟨fun k event => place.operate (client.create k event)⟩

end Seam

/-! ## Registrations and tables -/

section Tables

variable {β : Type}

/-- The registration of a factory at a seam. -/
def Seam.registration : (seam : Seam) → String → Factory β seam.Client → Registration β
  | storage => .storage
  | metrics => .metrics
  | scaling => .scaling
  | events => .events

namespace Registration

/-- The seam that a registration is for. -/
def seam : Registration β → Seam
  | storage .. => .storage
  | metrics .. => .metrics
  | scaling .. => .scaling
  | events .. => .events

def typeId : Registration β → String
  | storage typeId _ | metrics typeId _ | scaling typeId _ | events typeId _ => typeId

/-- The type ids that registrations claim at a seam, in their order. -/
def claimed (seam : Seam) (registrations : List (Registration β)) : List String :=
  (registrations.filter fun registration => registration.seam = seam).map typeId

/-- What a registration files at a seam. -/
def filed? : (seam : Seam) → Registration β → Option (String × Factory β seam.Client)
  | .storage => storage?
  | .metrics => metrics?
  | .scaling => scaling?
  | .events => events?

theorem filed?_eq_some_iff {seam : Seam} {registration : Registration β} {typeId : String}
    {factory : Factory β seam.Client} :
    registration.filed? seam = some (typeId, factory) ↔
      seam.registration typeId factory = registration := by
  cases seam <;> cases registration <;>
    simp [filed?, Seam.registration, storage?, metrics?, scaling?, events?, eq_comm]

theorem map_fst_filed? (seam : Seam) (registration : Registration β) :
    (registration.filed? seam).map Prod.fst =
      if registration.seam = seam then some registration.typeId else none := by
  cases seam <;> cases registration <;> rfl

/-- What registrations file at a seam, in their order. -/
def filed (seam : Seam) (registrations : List (Registration β)) :
    List (String × Factory β seam.Client) := registrations.filterMap (filed? seam)

theorem mem_filed_iff {seam : Seam} {registrations : List (Registration β)} {typeId : String}
    {factory : Factory β seam.Client} :
    (typeId, factory) ∈ filed seam registrations ↔
      seam.registration typeId factory ∈ registrations := by
  simp [filed, List.mem_filterMap, filed?_eq_some_iff]

theorem map_fst_filed (seam : Seam) (registrations : List (Registration β)) :
    (filed seam registrations).map Prod.fst = claimed seam registrations := by
  rw [filed, List.map_filterMap, funext (map_fst_filed? seam)]
  induction registrations with
  | nil => rfl
  | cons registration rest ih =>
      by_cases h : registration.seam = seam <;> simpa [claimed, h] using ih

end Registration

namespace Registry

/-- The factories of a seam. -/
def factories (r : Registry β) : (seam : Seam) → OrderedMap String (Factory β seam.Client)
  | .storage => r.storage
  | .metrics => r.metrics
  | .scaling => r.scaling
  | .events => r.events

/-- Make a client at a seam. -/
def resolveAt (r : Registry β) : (seam : Seam) → Factory β seam.Client
  | .storage => r.resolveStorage
  | .metrics => r.resolveMetrics
  | .scaling => r.resolveScaling
  | .events => r.resolveEvents

variable {r : Registry β} {seam : Seam} {settings : Settings}

theorem ext_factories {r' : Registry β} (h : ∀ seam, r.factories seam = r'.factories seam) :
    r = r' := by
  obtain ⟨storage, metrics, scaling, events⟩ := r
  obtain ⟨storage', metrics', scaling', events'⟩ := r'
  cases h .storage
  cases h .metrics
  cases h .scaling
  cases h .events
  rfl

theorem resolveAt_eq : r.resolveAt seam = resolveIn seam (r.factories seam) := by
  cases seam <;> rfl

theorem resolveAt_of_found {factory : Factory β seam.Client}
    (found : (r.factories seam).find? settings.typeId = some factory) (b : β) :
    r.resolveAt seam settings b = factory settings b := by
  rw [resolveAt_eq, resolveIn, found]

theorem resolveAt_of_not_found (missing : (r.factories seam).find? settings.typeId = none) (b : β) :
    r.resolveAt seam settings b = (.error (.notRegistered seam settings.typeId), b) := by
  rw [resolveAt_eq, resolveIn, missing]

theorem typeIds_eq : r.typeIds seam = (r.factories seam).keys := by cases seam <;> rfl

end Registry

end Tables

/-! ## Noting the calls -/

/-- A call of the factory that is registered at a seam under a type id. -/
structure FactoryCall where
  seam : Seam
  typeId : String
  settings : Settings

section Noting

variable {β : Type}

/-- The place of the world beside the notes. -/
def Place.besideNotes {α : Type} : Place (β × List α) β := ⟨Prod.fst, fun b s => (b, s.2)⟩

/-- Make a client and note that it is made.  The client works on the world beside the notes. -/
def Factory.noting (seam : Seam) (typeId : String) (factory : Factory β seam.Client) :
    Factory (β × List FactoryCall) seam.Client := fun settings s =>
  let (made, b) := factory settings s.1
  (seam.clientWithin .besideNotes <$> made, b, s.2 ++ [⟨seam, typeId, settings⟩])

/-- The registration of the factory that notes its calls. -/
def Registration.noting : Registration β → Registration (β × List FactoryCall)
  | storage typeId factory => .storage typeId (Factory.noting .storage typeId factory)
  | metrics typeId factory => .metrics typeId (Factory.noting .metrics typeId factory)
  | scaling typeId factory => .scaling typeId (Factory.noting .scaling typeId factory)
  | events typeId factory => .events typeId (Factory.noting .events typeId factory)

/-- The registry in which every factory notes its calls. -/
def Registry.noting (r : Registry β) : Registry (β × List FactoryCall) where
  storage := r.storage.mapValues (Factory.noting .storage)
  metrics := r.metrics.mapValues (Factory.noting .metrics)
  scaling := r.scaling.mapValues (Factory.noting .scaling)
  events := r.events.mapValues (Factory.noting .events)

variable {seam : Seam}

theorem Factory.noting_apply (typeId : String) (factory : Factory β seam.Client)
    (settings : Settings) (b : β) (calls : List FactoryCall) :
    Factory.noting seam typeId factory settings (b, calls) =
      (seam.clientWithin .besideNotes <$> (factory settings b).1, (factory settings b).2,
        calls ++ [⟨seam, typeId, settings⟩]) := rfl

theorem Registry.find?_factories_noting (r : Registry β) (typeId : String) :
    (r.noting.factories seam).find? typeId =
      ((r.factories seam).find? typeId).map (Factory.noting seam typeId) := by
  cases seam <;> exact OrderedMap.find?_mapValues ..

/-- A call is noted, and otherwise the answer is the same. -/
theorem Registry.resolveAt_noting_of_found {r : Registry β} {settings : Settings}
    {factory : Factory β seam.Client}
    (found : (r.factories seam).find? settings.typeId = some factory) (b : β)
    (calls : List FactoryCall) :
    r.noting.resolveAt seam settings (b, calls) =
      (seam.clientWithin .besideNotes <$> (factory settings b).1, (factory settings b).2,
        calls ++ [⟨seam, settings.typeId, settings⟩]) := by
  rw [← Factory.noting_apply]
  refine resolveAt_of_found ?_ (b, calls)
  rw [find?_factories_noting, found, Option.map_some]

theorem Registry.resolveAt_noting_of_not_found {r : Registry β} {settings : Settings}
    (missing : (r.factories seam).find? settings.typeId = none) (b : β)
    (calls : List FactoryCall) :
    r.noting.resolveAt seam settings (b, calls) =
      (.error (.notRegistered seam settings.typeId), b, calls) := by
  refine resolveAt_of_not_found ?_ (b, calls)
  rw [find?_factories_noting, missing, Option.map_none]

/-- What registrations that note the calls file is what they file otherwise, with the notes. -/
theorem Registration.filed_map_noting (registrations : List (Registration β)) :
    filed seam (registrations.map noting) =
      (filed seam registrations).map fun e => (e.1, Factory.noting seam e.1 e.2) := by
  have hnoting (registration : Registration β) : registration.noting.filed? seam =
      (registration.filed? seam).map fun e => (e.1, Factory.noting seam e.1 e.2) := by
    cases seam <;> cases registration <;> rfl
  rw [filed, List.filterMap_map, filed, List.map_filterMap]
  exact congrArg (List.filterMap · registrations) (funext hnoting)

theorem Registration.claimed_map_noting (registrations : List (Registration β)) :
    claimed seam (registrations.map noting) = claimed seam registrations := by
  rw [← map_fst_filed, filed_map_noting, List.map_map, ← map_fst_filed]
  rfl

end Noting

end Autoscaling
