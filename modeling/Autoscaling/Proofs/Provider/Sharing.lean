import Autoscaling.Proofs.Provider.Builtin
import Autoscaling.Proofs.Sim.Instances
import Mathlib.Tactic.Common

/-!
# What the factories of the simulation share

The metrics half and the scaling half of the simulation are made by two factories.  They share the
simulations that were made and a slot with the number of the one that they hand out
(`Sim.Shared`).  Metrics settings are good if a simulation can be made from them (`Sim.made`), and
only then the metrics factory fills the slot, if it is empty (`Sim.Shared.offer`).  A registry hosts
the simulation if it knows the two factories and all other ones leave alone what they share
(`Registry.Hosts`).  Then making backends does to it what these factories do
(`Registry.Hosts.get_resolve`).
-/

namespace Autoscaling

/-! ## Making backends around a place -/

section Apart

variable {β α : Type} {client : Type → Type} {place : Place β α} (seam : Seam)

/-- A factory that leaves alone what is in a place. -/
def Factory.Apart (place : Place β α) (factory : Factory β client) : Prop :=
  ∀ settings b, place.get (factory settings b).2 = place.get b

theorem Registry.apart_resolveIn {factories : OrderedMap String (Factory β client)}
    (apart : ∀ id factory, factories.find? id = some factory → factory.Apart place) :
    Factory.Apart place (resolveIn seam factories) := by
  intro settings b
  rw [resolveIn]
  cases h : factories.find? settings.typeId with
  | none => rfl
  | some factory => exact apart _ factory h settings b

theorem Backends.get_required {make : Factory β client} (apart : Factory.Apart place make)
    (settings? : Option Settings) (b : β) :
    place.get (required seam make settings? b).2 = place.get b := by
  cases settings? with
  | none => rfl
  | some settings => exact apart settings b

theorem Backends.get_optional {make : Factory β client} (apart : Factory.Apart place make)
    (settings? : Option Settings) (b : β) :
    place.get (optional make settings? b).2 = place.get b := by
  cases settings? with
  | none => rfl
  | some settings => exact apart settings b

end Apart

namespace Sim

/-! ## Simulations by number -/

namespace Shared

theorem lawful_cell (id : Nat) : (cell id).Lawful where
  get_put x shared := by
    cases x with
    | none => exact (OrderedMap.find?_erase ..).trans (if_pos rfl)
    | some s => exact (OrderedMap.find?_insert ..).trans (if_pos rfl)
  put_get shared := by
    obtain ⟨sims, next, slot⟩ := shared
    show (cell id).put (sims.find? id) _ = _
    cases h : sims.find? id with
    | none =>
        have hsame : sims.erase id = sims := by
          refine OrderedMap.eq_of_find?_eq fun k => ?_
          rw [OrderedMap.find?_erase]
          split_ifs with hk
          · rw [hk, h]
          · rfl
        exact congrArg (Shared.mk · next slot) hsame
    | some s =>
        have hsame : sims.insert id s = sims := by
          refine OrderedMap.eq_of_find?_eq fun k => ?_
          rw [OrderedMap.find?_insert]
          split_ifs with hk
          · rw [hk, h]
          · rfl
        exact congrArg (Shared.mk · next slot) hsame

theorem exists_put_eq (id : Nat) (x : Option Sim) (shared : Shared) :
    ∃ sims, (cell id).put x shared = { shared with sims := sims } := by
  cases x <;> exact ⟨_, rfl⟩

theorem get_install (shared : Shared) (s : Sim) :
    (cell shared.next).get (shared.install s) = some s :=
  (OrderedMap.find?_insert ..).trans (if_pos rfl)

theorem get_pass (shared : Shared) (id nanos : Nat) :
    (cell id).get (shared.pass nanos) = ((cell id).get shared).map (Sim.pass · nanos) :=
  OrderedMap.find?_mapValues ..

/-- What becomes of it when a simulation is offered, or none. -/
def offer (shared : Shared) (s? : Option Sim) : Shared :=
  match shared.slot, s? with
  | none, some s => shared.install s
  | _, _ => shared

theorem offer_none (shared : Shared) : shared.offer none = shared := by
  unfold offer
  cases shared.slot <;> rfl

theorem offer_of_filled {shared : Shared} {id : Nat} (filled : shared.slot = some id)
    (s? : Option Sim) : shared.offer s? = shared := by
  unfold offer
  rw [filled]

theorem offer_of_empty {shared : Shared} (empty : shared.slot = none) (s : Sim) :
    shared.offer (some s) = shared.install s := by
  unfold offer
  rw [empty]

end Shared

variable {β : Type} {place : Place β Shared} (lawful : place.Lawful) {b : β}

include lawful in
theorem lawful_simulation (id : Nat) : (simulation place id).Lawful :=
  lawful.within (Shared.lawful_cell id)

include lawful in
/-- What is done to a simulation changes nothing else of what is shared. -/
theorem exists_operate_eq {ε α : Type} (id : Nat) (operation : Operation (Option Sim) ε α) (b : β) :
    ∃ sims, place.get ((simulation place id).operate operation b).2 =
      { place.get b with sims := sims } := by
  show ∃ sims, place.get (place.put ((Shared.cell id).put _ (place.get b)) b) = _
  rw [lawful.get_put]
  exact Shared.exists_put_eq ..

/-! ## The two factories -/

/-- The simulation that is made from metrics settings, or why none is made: they are not settings of
a simulation, or the simulation does not accept them. -/
def made (settings : Settings) : Except ProviderError Sim := do
  let config ← (settings.decode Config.decoder).mapError (ProviderError.ofConfigError .metrics)
  (create config).mapError fun e => .invalidConfig .metrics typeId e.message

theorem made_eq_ok_iff {settings : Settings} {s : Sim} :
    made settings = .ok s ↔
      ∃ config, settings.decode Config.decoder = .ok config ∧ create config = .ok s := by
  rw [made]
  cases settings.decode Config.decoder with
  | error e => simp [Except.mapError, bind, Except.bind]
  | ok config =>
      cases hcreate : create config <;> simp [Except.mapError, bind, Except.bind, hcreate]

/-- The slot is filled: whatever the settings, the metrics half of its simulation is handed out. -/
theorem metricsFactory_of_filled {id : Nat} (filled : (place.get b).slot = some id)
    (settings : Settings) :
    metricsFactory place settings b = (.ok (metricsClient (simulation place id)), b) := by
  simp only [metricsFactory, filled]

theorem metricsFactory_of_made (empty : (place.get b).slot = none) {settings : Settings} {s : Sim}
    (good : made settings = .ok s) :
    metricsFactory place settings b =
      (.ok (metricsClient (simulation place (place.get b).next)),
        place.put ((place.get b).install s) b) := by
  obtain ⟨config, hdecode, hcreate⟩ := made_eq_ok_iff.mp good
  simp only [metricsFactory, empty, hdecode, hcreate]

theorem metricsFactory_of_refused (empty : (place.get b).slot = none) {settings : Settings}
    {e : ProviderError} (bad : made settings = .error e) :
    metricsFactory place settings b = (.error e, b) := by
  rw [made] at bad
  cases hdecode : settings.decode Config.decoder with
  | error e₀ =>
      rw [hdecode] at bad
      cases bad
      simp only [metricsFactory, empty, hdecode]
  | ok config =>
      rw [hdecode] at bad
      cases hcreate : create config with
      | error e₀ =>
          simp only [hcreate, Except.mapError, bind, Except.bind] at bad
          cases bad
          simp only [metricsFactory, empty, hdecode, hcreate]
      | ok s => simp [hcreate, Except.mapError, bind, Except.bind] at bad

theorem scalingFactory_of_filled {id : Nat} (filled : (place.get b).slot = some id)
    (settings : Settings) :
    scalingFactory place settings b = (.ok (scalingClient (simulation place id)), b) := by
  rw [scalingFactory, filled]

theorem scalingFactory_of_empty (empty : (place.get b).slot = none) (settings : Settings) :
    scalingFactory place settings b =
      (.error (.invalidConfig .scaling typeId SimError.notConfigured.message), b) := by
  rw [scalingFactory, empty]

include lawful in
/-- Whatever becomes of the metrics half, the simulation of good settings is offered. -/
theorem get_metricsFactory (settings : Settings) (b : β) :
    place.get (metricsFactory place settings b).2 =
      (place.get b).offer (made settings).toOption := by
  cases hslot : (place.get b).slot with
  | some id => rw [metricsFactory_of_filled hslot, Shared.offer_of_filled hslot]
  | none =>
      cases hmade : made settings with
      | ok s =>
          rw [metricsFactory_of_made hslot hmade, lawful.get_put]
          exact (Shared.offer_of_empty hslot s).symm
      | error e =>
          rw [metricsFactory_of_refused hslot hmade]
          exact (Shared.offer_none _).symm

include lawful in
/-- The metrics half that is handed out is that of the simulation in the slot. -/
theorem of_metricsFactory {settings : Settings} {client : MetricsClient β} {b' : β}
    (h : metricsFactory place settings b = (.ok client, b')) :
    ∃ id, (place.get b').slot = some id ∧ client = metricsClient (simulation place id) := by
  cases hslot : (place.get b).slot with
  | some id =>
      rw [metricsFactory_of_filled hslot] at h
      cases h
      exact ⟨id, hslot, rfl⟩
  | none =>
      cases hmade : made settings with
      | ok s =>
          rw [metricsFactory_of_made hslot hmade] at h
          cases h
          exact ⟨_, by rw [lawful.get_put]; rfl, rfl⟩
      | error e =>
          rw [metricsFactory_of_refused hslot hmade] at h
          cases h

/-- So is the scaling half. -/
theorem of_scalingFactory {settings : Settings} {client : ScalingClient β} {b' : β}
    (h : scalingFactory place settings b = (.ok client, b')) :
    b' = b ∧ ∃ id, (place.get b).slot = some id ∧ client = scalingClient (simulation place id) := by
  cases hslot : (place.get b).slot with
  | some id =>
      rw [scalingFactory_of_filled hslot] at h
      cases h
      exact ⟨rfl, id, rfl, rfl⟩
  | none =>
      rw [scalingFactory_of_empty hslot] at h
      cases h

theorem apart_scalingFactory : Factory.Apart place (scalingFactory place) := by
  intro settings b
  cases hslot : (place.get b).slot with
  | some id => rw [scalingFactory_of_filled hslot]
  | none => rw [scalingFactory_of_empty hslot]

/-- Some settings choose the simulation. -/
def chosen (settings? : Option Settings) : Bool :=
  settings?.any fun settings => settings.typeId == typeId

theorem chosen_some {settings : Settings} :
    chosen (some settings) = true ↔ settings.typeId = typeId := beq_iff_eq

end Sim

/-! ## Making backends -/

/-- A registry knows the simulation under its type id, and no other factory has anything to do with
what its factories share. -/
structure Registry.Hosts {β : Type} (place : Place β Sim.Shared) (r : Registry β) : Prop where
  metrics : r.metrics.find? Sim.typeId = some (Sim.metricsFactory place)
  scaling : r.scaling.find? Sim.typeId = some (Sim.scalingFactory place)
  storageApart : ∀ id factory, r.storage.find? id = some factory → factory.Apart place
  metricsApart : ∀ id factory, id ≠ Sim.typeId → r.metrics.find? id = some factory →
    factory.Apart place
  scalingApart : ∀ id factory, id ≠ Sim.typeId → r.scaling.find? id = some factory →
    factory.Apart place
  eventsApart : ∀ id factory, r.events.find? id = some factory → factory.Apart place

namespace Registry

variable {β : Type} {place : Place β Sim.Shared} {r : Registry β}

theorem hosts_builtins (h : build (builtins place) = .ok r) : r.Hosts place := by
  rw [build_builtins] at h
  cases h
  have hinline : Factory.Apart place Inline.factory := by
    intro settings b
    rw [Inline.factory]
    cases settings.decode Inline.Config.decoder with
    | error e => rfl
    | ok config =>
        dsimp only
        split_ifs <;> rfl
  refine ⟨rfl, rfl, ?_, ?_, ?_, ?_⟩
  · intro id factory h
    rw [OrderedMap.find?_insert] at h
    split_ifs at h
    · cases h
      exact hinline
    · cases h
  · intro id factory hid h
    rw [OrderedMap.find?_insert, if_neg hid] at h
    cases h
  · intro id factory hid h
    rw [OrderedMap.find?_insert, if_neg hid] at h
    cases h
  · intro id factory h
    rw [OrderedMap.find?_insert] at h
    split_ifs at h
    · cases h
      exact fun _ _ => rfl
    · cases h

/-- The registry of the built-in backends. -/
def builtinHost (place : Place β Sim.Shared) : { r : Registry β // r.Hosts place } :=
  ⟨_, hosts_builtins (build_builtins place)⟩

/-- The settings that a simulation is made from in the making of backends: those for metrics, if
they choose the simulation and the storage could be made. -/
def payload? (r : Registry β) (c : Config) (b : β) : Option Settings :=
  match Backends.required .storage r.resolveStorage c.storage b with
  | (.ok _, _) => c.metrics.filter fun settings => settings.typeId == Sim.typeId
  | (.error _, _) => none

namespace Hosts

variable (hosts : r.Hosts place)
include hosts

theorem resolveMetrics_eq {settings : Settings} (h : settings.typeId = Sim.typeId) (b : β) :
    r.resolveMetrics settings b = Sim.metricsFactory place settings b := by
  rw [resolveMetrics, resolveIn, h, hosts.metrics]

theorem resolveScaling_eq {settings : Settings} (h : settings.typeId = Sim.typeId) (b : β) :
    r.resolveScaling settings b = Sim.scalingFactory place settings b := by
  rw [resolveScaling, resolveIn, h, hosts.scaling]

theorem apart_resolveStorage : Factory.Apart place r.resolveStorage :=
  apart_resolveIn _ hosts.storageApart

theorem apart_resolveScaling : Factory.Apart place r.resolveScaling := by
  refine apart_resolveIn _ fun id factory h => ?_
  by_cases hid : id = Sim.typeId
  · rw [hid, hosts.scaling] at h
    cases h
    exact Sim.apart_scalingFactory
  · exact hosts.scalingApart id factory hid h

theorem apart_resolveEvents : Factory.Apart place r.resolveEvents :=
  apart_resolveIn _ hosts.eventsApart

/-- In the making of the metrics client, nothing but the simulation changes what is shared. -/
theorem get_requiredMetrics (lawful : place.Lawful) (settings? : Option Settings) (b : β) :
    place.get (Backends.required .metrics r.resolveMetrics settings? b).2 =
      (place.get b).offer ((settings?.filter fun settings => settings.typeId == Sim.typeId).bind
        fun settings => (Sim.made settings).toOption) := by
  cases settings? with
  | none => exact (Sim.Shared.offer_none _).symm
  | some settings =>
      show place.get (r.resolveMetrics settings b).2 = _
      by_cases hid : settings.typeId = Sim.typeId
      · rw [hosts.resolveMetrics_eq hid, Sim.get_metricsFactory lawful]
        simp [Option.filter, hid]
      · have hsame : place.get (r.resolveMetrics settings b).2 = place.get b := by
          rw [resolveMetrics, resolveIn]
          cases h : r.metrics.find? settings.typeId with
          | none => rfl
          | some factory => exact hosts.metricsApart _ factory hid h settings b
        simp [Option.filter, hid, hsame, Sim.Shared.offer_none]

/-- Making backends offers the simulation that is made from the settings for metrics, and does
nothing else to what is shared, wherever it ends. -/
theorem get_resolve (lawful : place.Lawful) (c : Config) (b : β) :
    place.get (Backends.resolve r c b).2 =
      (place.get b).offer ((r.payload? c b).bind fun settings => (Sim.made settings).toOption) := by
  have hstorage := Backends.get_required .storage hosts.apart_resolveStorage c.storage b
  rw [payload?, Backends.resolve]
  rcases h₁ : Backends.required .storage r.resolveStorage c.storage b with ⟨_ | storage, b₁⟩
  · simpa [h₁, Sim.Shared.offer_none] using hstorage
  have hmetrics := hosts.get_requiredMetrics lawful c.metrics b₁
  rw [h₁] at hstorage
  dsimp only at hstorage ⊢
  rw [← hstorage, ← hmetrics]
  -- what follows the metrics leaves the place alone, whether it fails or not
  rcases Backends.required .metrics r.resolveMetrics c.metrics b₁ with ⟨_ | metrics, b₂⟩
  · rfl
  have hscaling := Backends.get_required .scaling hosts.apart_resolveScaling c.scaling b₂
  dsimp only
  rw [← hscaling]
  rcases Backends.required .scaling r.resolveScaling c.scaling b₂ with ⟨_ | scaling, b₃⟩
  · rfl
  have hevents := Backends.get_optional hosts.apart_resolveEvents c.events b₃
  dsimp only
  rw [← hevents]
  rcases Backends.optional r.resolveEvents c.events b₃ with ⟨_ | events, b₄⟩ <;> rfl

/-- Settings that are no good end the making of backends, unless there is a simulation already. -/
theorem resolve_of_refused {c : Config} {b : β} (empty : (place.get b).slot = none)
    {settings : Settings} (payload : r.payload? c b = some settings) {e : ProviderError}
    (bad : Sim.made settings = .error e) :
    (Backends.resolve r c b).1 = .error e := by
  have hstorage := Backends.get_required .storage hosts.apart_resolveStorage c.storage b
  rw [payload?] at payload
  rw [Backends.resolve]
  rcases h₁ : Backends.required .storage r.resolveStorage c.storage b with ⟨_ | storage, b₁⟩
  · rw [h₁] at payload
    cases payload
  rw [h₁] at hstorage payload
  obtain ⟨hmetrics, hid⟩ := Option.filter_eq_some_iff.mp payload
  have hempty : (place.get b₁).slot = none := by rw [hstorage, empty]
  have hrefused := Sim.metricsFactory_of_refused hempty bad
  have hfails : Backends.required .metrics r.resolveMetrics c.metrics b₁ = (.error e, b₁) := by
    rw [hmetrics]
    exact (hosts.resolveMetrics_eq (by simpa using hid) b₁).trans hrefused
  dsimp only
  rw [hfails]

/-- The halves that come out of the making of backends, if they were chosen, are those of the
simulation that is in the slot afterwards. -/
theorem of_resolve (lawful : place.Lawful) {c : Config} {b b' : β} {backends : Backends β}
    (h : Backends.resolve r c b = (.ok backends, b')) :
    (Sim.chosen c.metrics → ∃ id, (place.get b').slot = some id ∧
        backends.metrics = Sim.metricsClient (Sim.simulation place id)) ∧
      (Sim.chosen c.scaling → ∃ id, (place.get b').slot = some id ∧
        backends.scaling = Sim.scalingClient (Sim.simulation place id)) := by
  obtain ⟨b₁, b₂, b₃, h₁, h₂, h₃, h₄⟩ := Backends.resolve_eq_ok_iff.mp h
  have hlast : place.get b' = place.get b₂ := by
    have hscaling := Backends.get_required .scaling hosts.apart_resolveScaling c.scaling b₂
    have hevents := Backends.get_optional hosts.apart_resolveEvents c.events b₃
    rw [h₃] at hscaling
    rw [h₄] at hevents
    exact hevents.trans hscaling
  rw [hlast]
  constructor
  · intro hchosen
    obtain ⟨settings, hsettings, hmake⟩ := Backends.required_eq_ok_iff.mp h₂
    rw [hsettings, Sim.chosen_some] at hchosen
    rw [hosts.resolveMetrics_eq hchosen] at hmake
    exact Sim.of_metricsFactory lawful hmake
  · intro hchosen
    obtain ⟨settings, hsettings, hmake⟩ := Backends.required_eq_ok_iff.mp h₃
    rw [hsettings, Sim.chosen_some] at hchosen
    rw [hosts.resolveScaling_eq hchosen] at hmake
    exact (Sim.of_scalingFactory hmake).2

end Hosts

end Registry

end Autoscaling
