import Autoscaling.Command.Respond
import Autoscaling.Ordered.Lemmas
import Mathlib.Tactic.Common

/-!
# Which backends can be made

Making a backend succeeds on conditions that are found stage by stage: there are settings, their
type id is registered at the seam, and the factory accepts them.  `Request.resolveBuiltin_eq_ok_iff`
puts these conditions together for the built-in backends and a configuration, in `Config.Chooses`.
-/

namespace Autoscaling

section Stages

variable {β : Type} {client : Type → Type} {seam : Seam} {s s' : β}

theorem Registry.resolveIn_insert_eq_ok_iff {typeId : String} {factory : Factory β client}
    {settings : Settings} {x : client β} :
    resolveIn seam (OrderedMap.empty.insert typeId factory) settings s = (.ok x, s') ↔
      settings.typeId = typeId ∧ factory settings s = (.ok x, s') := by
  rw [resolveIn, OrderedMap.find?_insert, OrderedMap.find?_empty]
  by_cases h : settings.typeId = typeId <;> simp [h]

theorem Backends.required_eq_ok_iff {make : Factory β client} {settings? : Option Settings}
    {x : client β} :
    required seam make settings? s = (.ok x, s') ↔
      ∃ settings, settings? = some settings ∧ make settings s = (.ok x, s') := by
  cases settings? <;> simp [required]

theorem Backends.optional_eq_ok_iff {make : Factory β client} {settings? : Option Settings}
    {x : Option (client β)} :
    optional make settings? s = (.ok x, s') ↔
      (settings? = none ∧ none = x ∧ s = s') ∨
        ∃ settings y, settings? = some settings ∧ make settings s = (.ok y, s') ∧ some y = x := by
  cases settings? with
  | none => simp [optional]
  | some settings =>
      show (some <$> (make settings s).1, (make settings s).2) = _ ↔ _
      rcases h : make settings s with ⟨_ | y, s₁⟩ <;> simp [h, and_comm]

/-- The clients are made one after the other, each from the state that the one before has left. -/
theorem Backends.resolve_eq_ok_iff {r : Registry β} {c : Config} {b : Backends β} :
    resolve r c s = (.ok b, s') ↔
      ∃ s₁ s₂ s₃, required .storage r.resolveStorage c.storage s = (.ok b.storage, s₁) ∧
        required .metrics r.resolveMetrics c.metrics s₁ = (.ok b.metrics, s₂) ∧
        required .scaling r.resolveScaling c.scaling s₂ = (.ok b.scaling, s₃) ∧
        optional r.resolveEvents c.events s₃ = (.ok b.events, s') := by
  obtain ⟨storage₀, metrics₀, scaling₀, events₀⟩ := b
  rw [resolve]
  rcases required .storage r.resolveStorage c.storage s with ⟨_ | storage, s₁⟩
  · simp
  rcases hmetrics : required .metrics r.resolveMetrics c.metrics s₁ with ⟨_ | metrics, s₂⟩
  · simp [hmetrics]
  rcases hscaling : required .scaling r.resolveScaling c.scaling s₂ with ⟨_ | scaling, s₃⟩
  · simp [hmetrics, hscaling]
  rcases hevents : optional r.resolveEvents c.events s₃ with ⟨_ | events, s₄⟩
  · simp [hmetrics, hscaling, hevents]
  · simp [hmetrics, hscaling, hevents, and_assoc]

end Stages

/-! ## The built-in factories -/

section Factories

variable {β : Type} {settings : Settings}

theorem Inline.factory_eq_ok_iff {s s' : β} {x : StorageClient β} :
    factory settings s = (.ok x, s') ↔
      ∃ config, settings.decode Config.decoder = .ok config ∧ config.autoscalers ≠ [] ∧
        client config.autoscalers = x ∧ s = s' := by
  rw [factory]
  cases settings.decode Config.decoder with
  | error e => simp
  | ok config =>
      by_cases h : config.autoscalers = [] <;> simp [h]

/-- The first metrics settings make the simulation. -/
theorem Sim.metricsFactory_eq_ok_iff {s' : BuiltinWorld} {x : MetricsClient BuiltinWorld} :
    metricsFactory Place.whole settings .empty = (.ok x, s') ↔
      ∃ config sim, settings.decode Config.decoder = .ok config ∧ create config = .ok sim ∧
        metricsClient (simulation Place.whole 0) = x ∧ Shared.empty.install sim = s' := by
  rw [metricsFactory]
  simp only [Place.whole, id_eq, Shared.empty]
  cases settings.decode Config.decoder with
  | error e => simp
  | ok config => cases hcreate : create config <;> simp [hcreate]

theorem Sim.scalingFactory_eq_ok_iff {s s' : BuiltinWorld} {x : ScalingClient BuiltinWorld} :
    scalingFactory Place.whole settings s = (.ok x, s') ↔
      ∃ id, s.slot = some id ∧ scalingClient (simulation Place.whole id) = x ∧ s = s' := by
  rw [scalingFactory]
  simp only [Place.whole, id_eq]
  cases s.slot <;> simp

theorem build_builtins (place : Place β Sim.Shared) :
    Registry.build (builtins place) =
      .ok ⟨OrderedMap.empty.insert Inline.typeId Inline.factory,
        OrderedMap.empty.insert Sim.typeId (Sim.metricsFactory place),
        OrderedMap.empty.insert Sim.typeId (Sim.scalingFactory place),
        OrderedMap.empty.insert EventLog.typeId EventLog.factory⟩ := rfl

end Factories

/-- A configuration chooses built-in backends that can be made: the storage of some declared
autoscalers and a simulation, which both metrics and scaling name. -/
structure Config.Chooses (c : Config) (declared : List Spec) (sim : Sim) : Prop where
  storage : ∃ settings config, c.storage = some settings ∧ settings.typeId = "inline" ∧
    settings.decode Inline.Config.decoder = .ok config ∧ config.autoscalers = declared
  declares : declared ≠ []
  metrics : ∃ settings config, c.metrics = some settings ∧ settings.typeId = "sim" ∧
    settings.decode Sim.Config.decoder = .ok config ∧ Sim.create config = .ok sim
  scaling : ∃ settings, c.scaling = some settings ∧ settings.typeId = "sim"
  events : ∀ settings, c.events = some settings → settings.typeId = "log"

/-- The clients of declared autoscalers and a simulation. -/
def Config.builtinBackends (c : Config) (declared : List Spec) : Backends BuiltinWorld :=
  let simulation := Sim.simulation Place.whole 0
  ⟨Inline.client declared, Sim.metricsClient simulation, Sim.scalingClient simulation,
    c.events.map fun _ => EventLog.client⟩

/-- The built-in backends of a configuration can be made exactly when it chooses them. -/
theorem Request.resolveBuiltin_eq_ok_iff {c : Config} {b : Backends BuiltinWorld}
    {outside : BuiltinWorld} :
    resolveBuiltin c = .ok (b, outside) ↔
      ∃ declared sim, c.Chooses declared sim ∧ c.builtinBackends declared = b ∧
        Sim.Shared.empty.install sim = outside := by
  have hresolve (r : Registry BuiltinWorld) (hr : Registry.build (builtins Place.whole) = .ok r) :
      resolveBuiltin c = .ok (b, outside) ↔ Backends.resolve r c .empty = (.ok b, outside) := by
    rw [resolveBuiltin, hr]
    show (match Backends.resolve r c .empty with
      | (.ok backends, outside) => Except.ok (backends, outside)
      | (.error e, _) => .error (CommandError.provider e)) = _ ↔ _
    rcases Backends.resolve r c .empty with ⟨_ | b₀, s⟩ <;> simp
  rw [hresolve _ (build_builtins _), Backends.resolve_eq_ok_iff]
  simp only [Backends.required_eq_ok_iff, Backends.optional_eq_ok_iff, Registry.resolveStorage,
    Registry.resolveMetrics, Registry.resolveScaling, Registry.resolveEvents,
    Registry.resolveIn_insert_eq_ok_iff, Inline.factory_eq_ok_iff]
  obtain ⟨storage₀, metrics₀, scaling₀, events₀⟩ := b
  constructor
  · rintro ⟨s₁, s₂, s₃, ⟨storage, hstorage, hinline, inline, hdecode, hne, rfl, rfl⟩,
      ⟨metrics, hmetrics, hsim, hmade⟩, ⟨scaling, hscaling, hsim', hmade'⟩, hevents⟩
    obtain ⟨config, sim, hconfig, hcreate, rfl, rfl⟩ := Sim.metricsFactory_eq_ok_iff.mp hmade
    obtain ⟨id, hslot, rfl, rfl⟩ := Sim.scalingFactory_eq_ok_iff.mp hmade'
    cases hslot
    have hlogged : (∀ settings, c.events = some settings → settings.typeId = "log") ∧
        c.events.map (fun _ => EventLog.client) = events₀ ∧
        Sim.Shared.empty.install sim = outside := by
      rcases hevents with ⟨hnone, rfl, rfl⟩ | ⟨settings, y, hsome, ⟨hlog, hclient⟩, rfl⟩
      · simp [hnone]
      · cases hclient
        simp only [hsome, Option.some.injEq, forall_eq', Option.map_some, and_self, and_true]
        exact hlog
    obtain ⟨hlog, rfl, rfl⟩ := hlogged
    exact ⟨inline.autoscalers, sim,
      { storage := ⟨storage, inline, hstorage, hinline, hdecode, rfl⟩
        declares := hne
        metrics := ⟨metrics, config, hmetrics, hsim, hconfig, hcreate⟩
        scaling := ⟨scaling, hscaling, hsim'⟩
        events := hlog }, rfl, rfl⟩
  · rintro ⟨declared, sim, chooses, hbackends, rfl⟩
    cases hbackends
    obtain ⟨storage, inline, hstorage, hinline, hdecode, rfl⟩ := chooses.storage
    obtain ⟨metrics, config, hmetrics, hsim, hconfig, hcreate⟩ := chooses.metrics
    obtain ⟨scaling, hscaling, hsim'⟩ := chooses.scaling
    refine ⟨.empty, .install .empty sim, .install .empty sim,
      ⟨storage, hstorage, hinline, inline, hdecode, chooses.declares, rfl, rfl⟩,
      ⟨metrics, hmetrics, hsim, Sim.metricsFactory_eq_ok_iff.mpr ?_⟩,
      ⟨scaling, hscaling, hsim', Sim.scalingFactory_eq_ok_iff.mpr ⟨0, rfl, rfl, rfl⟩⟩, ?_⟩
    · exact ⟨config, sim, hconfig, hcreate, rfl, rfl⟩
    · cases hevents : c.events with
      | none => exact .inl ⟨rfl, rfl, rfl⟩
      | some settings => exact .inr ⟨settings, _, rfl, ⟨chooses.events settings hevents, rfl⟩, rfl⟩

end Autoscaling
