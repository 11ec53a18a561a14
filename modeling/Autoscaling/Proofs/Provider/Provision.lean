import Autoscaling.Proofs.Provider.Sharing

/-!
# One simulation for everybody

The halves of the simulation are made any number of times, directly and in the making of backends,
with settings of any kind, and what was made is used meanwhile.  A `Provision` is the world in which
that happens, together with the halves that were handed out.

The slot is filled by the first metrics settings that are good.  The simulation in it is never
replaced, and every half holds on to the simulation that was in the slot when it was made.  So all
of the halves work on one simulation, and what is set through one of them is seen through all
(`Provision.set_once`).
-/

namespace Autoscaling

/-- What is outside, and the halves of the simulation that were handed out, oldest first. -/
structure Provision (β : Type) where
  outside : β
  metrics : List (MetricsClient β)
  scaling : List (ScalingClient β)

namespace Provision

variable {β : Type} (place : Place β Sim.Shared)

/-- What can happen: halves are made, and those that were handed out are used by their numbers. -/
inductive Event where
  | makeMetrics (settings : Settings)
  | makeScaling (settings : Settings)
  /-- backends are made with a registry that knows the simulation -/
  | resolve (registry : { r : Registry β // r.Hosts place }) (config : Config)
  | setScale (i : Nat) (k : Key) (target : Option Settings) (desired : UInt32)
  | getScale (i : Nat) (k : Key) (target : Option Settings)
  | getMetric (i : Nat) (metric : String) (k : Key) (settings : Option Settings)
  /-- time goes by -/
  | pass (nanos : Nat)

variable {place}

/-- What becomes of it. -/
def step (p : Provision β) : Event place → Provision β
  | .makeMetrics settings =>
      let (made, b) := Sim.metricsFactory place settings p.outside
      { p with outside := b, metrics := p.metrics ++ made.toOption.toList }
  | .makeScaling settings =>
      let (made, b) := Sim.scalingFactory place settings p.outside
      { p with outside := b, scaling := p.scaling ++ made.toOption.toList }
  | .resolve registry config =>
      match Backends.resolve registry.1 config p.outside with
      | (.ok backends, b) =>
          { outside := b
            metrics := p.metrics ++ if Sim.chosen config.metrics then [backends.metrics] else []
            scaling := p.scaling ++ if Sim.chosen config.scaling then [backends.scaling] else [] }
      | (.error _, b) => { p with outside := b }
  | .setScale i k target desired =>
      match p.scaling[i]? with
      | some client => { p with outside := (client.setScale k target desired p.outside).2 }
      | none => p
  | .getScale i k target =>
      match p.scaling[i]? with
      | some client => { p with outside := (client.getScale k target p.outside).2 }
      | none => p
  | .getMetric i metric k settings =>
      match p.metrics[i]? with
      | some client => { p with outside := (client.getMetric metric k settings p.outside).2 }
      | none => p
  | .pass nanos =>
      { p with outside := place.put ((place.get p.outside).pass nanos) p.outside }

/-- The settings that the metrics half is made from. -/
def payloads (p : Provision β) : Event place → List Settings
  | .makeMetrics settings => [settings]
  | .resolve registry config => (registry.1.payload? config p.outside).toList
  | _ => []

/-- The scaling that is done, if it succeeds. -/
def scaled (p : Provision β) : Event place → List (Key × UInt32)
  | .setScale i k target desired =>
      match p.scaling[i]? with
      | some client =>
          match (client.setScale k target desired p.outside).1 with
          | .ok () => [(k, desired)]
          | .error _ => []
      | none => []
  | _ => []

/-- Several things happen, one after the other. -/
def run (p : Provision β) (events : List (Event place)) : Provision β := events.foldl step p

/-- The settings that the metrics half is made from in a run, good ones and bad ones. -/
def tried (p : Provision β) (events : List (Event place)) : List Settings :=
  notes step payloads p events

/-- The scalings that succeed in a run. -/
def scalings (p : Provision β) (events : List (Event place)) : List (Key × UInt32) :=
  notes step scaled p events

/-! ## The invariant -/

/-- The simulation of the first good settings. -/
def founder? (tried : List Settings) : Option Sim :=
  tried.findSome? fun settings => (Sim.made settings).toOption

/-- How things stand after some settings were tried and some scalings were done.  The simulation
that is handed out is the one with the given number. -/
structure Stands (place : Place β Sim.Shared) (id : Nat) (tried : List Settings)
    (scalings : List (Key × UInt32)) (p : Provision β) : Prop where
  empty : founder? tried = none →
    (place.get p.outside).slot = none ∧ (place.get p.outside).next = id ∧ scalings = []
  filled : ∀ origin, founder? tried = some origin → (place.get p.outside).slot = some id ∧
    Sim.Continued (Sim.simulation place id) origin (Sim.latest scalings) p.outside
  metrics : ∀ client ∈ p.metrics, (place.get p.outside).slot = some id ∧
    client = Sim.metricsClient (Sim.simulation place id)
  scaling : ∀ client ∈ p.scaling, (place.get p.outside).slot = some id ∧
    client = Sim.scalingClient (Sim.simulation place id)

theorem founder?_append (xs ys : List Settings) :
    founder? (xs ++ ys) = (founder? xs).or (founder? ys) := List.findSome?_append ..

/-- As long as all settings are bad there is no simulation. -/
theorem founder?_eq_none_iff {tried : List Settings} :
    founder? tried = none ↔ ∀ settings ∈ tried, ∃ e, Sim.made settings = .error e := by
  rw [founder?, List.findSome?_eq_none_iff]
  refine forall₂_congr fun settings _ => ?_
  cases Sim.made settings <;> simp [Except.toOption]

theorem founder?_of_made {earlier later : List Settings} {settings : Settings} {origin : Sim}
    (bad : ∀ x ∈ earlier, ∃ e, Sim.made x = .error e) (good : Sim.made settings = .ok origin) :
    founder? (earlier ++ settings :: later) = some origin := by
  rw [founder?_append, founder?_eq_none_iff.mpr bad, Option.none_or, founder?, List.findSome?_cons,
    good]
  rfl

theorem founder?_singleton (settings : Settings) :
    founder? [settings] = (Sim.made settings).toOption := List.findSome?_singleton

theorem founder?_toList (settings? : Option Settings) :
    founder? settings?.toList = settings?.bind fun settings => (Sim.made settings).toOption := by
  cases settings? with
  | none => rfl
  | some settings => exact founder?_singleton settings

/-- The simulation of good settings starts with one instance of everything. -/
theorem continues_founder {tried : List Settings} {origin : Sim}
    (h : founder? tried = some origin) : origin.Continues origin (Sim.latest []) := by
  obtain ⟨settings, -, hmade⟩ := List.exists_of_findSome?_eq_some h
  cases h : Sim.made settings with
  | error e =>
      rw [h] at hmade
      exact nomatch hmade
  | ok s =>
      rw [h] at hmade
      cases Option.some.inj hmade
      obtain ⟨config, -, hcreate⟩ := Sim.made_eq_ok_iff.mp h
      exact Sim.continues_create hcreate

namespace Stands

variable {id : Nat} {tried : List Settings} {scalings : List (Key × UInt32)} {p : Provision β}
  (stands : Stands place id tried scalings p)
include stands

theorem founder?_eq_none : founder? tried = none ↔ (place.get p.outside).slot = none := by
  refine ⟨fun h => (stands.empty h).1, fun hslot => ?_⟩
  cases h : founder? tried with
  | none => rfl
  | some origin =>
      rw [(stands.filled origin h).1] at hslot
      cases hslot

/-- What is in the slot, if anything, is the simulation of the number. -/
theorem slot_eq {id₀ : Nat} (hslot : (place.get p.outside).slot = some id₀) : id₀ = id := by
  cases h : founder? tried with
  | none =>
      rw [(stands.empty h).1] at hslot
      cases hslot
  | some origin => exact Option.some.inj (hslot.symm.trans (stands.filled origin h).1)

/-- A filled slot has a simulation in it. -/
theorem exists_filled (hslot : (place.get p.outside).slot ≠ none) :
    ∃ origin, founder? tried = some origin :=
  Option.ne_none_iff_exists'.mp fun h => hslot (stands.founder?_eq_none.mp h)

/-- More settings are tried.  If the slot is empty, the first good ones of them fill it. -/
theorem supply {new : List Settings} {b : β} (ms : List (MetricsClient β))
    (ss : List (ScalingClient β))
    (hget : place.get b = (place.get p.outside).offer (founder? new))
    (hms : ∀ client ∈ ms, ∃ id, (place.get b).slot = some id ∧
      client = Sim.metricsClient (Sim.simulation place id))
    (hss : ∀ client ∈ ss, ∃ id, (place.get b).slot = some id ∧
      client = Sim.scalingClient (Sim.simulation place id)) :
    Stands place id (tried ++ new) scalings ⟨b, p.metrics ++ ms, p.scaling ++ ss⟩ := by
  -- first without the halves, which then have the only number that can be in the slot
  have bare : Stands place id (tried ++ new) scalings ⟨b, [], []⟩ := by
    refine ⟨fun h => ?_, fun origin h => ?_, nofun, nofun⟩
    · rw [founder?_append, Option.or_eq_none_iff] at h
      rw [hget, h.2, Sim.Shared.offer_none]
      exact stands.empty h.1
    · rw [founder?_append] at h
      cases hfounder : founder? tried with
      | none =>
          -- what is not there cannot have been scaled, so the new one is as it was made
          obtain ⟨hslot, rfl, rfl⟩ := stands.empty hfounder
          rw [hfounder, Option.none_or] at h
          rw [h, Sim.Shared.offer_of_empty hslot] at hget
          refine ⟨congrArg Sim.Shared.slot hget, origin, ?_, continues_founder h⟩
          exact (congrArg (Sim.Shared.cell _).get hget).trans (Sim.Shared.get_install ..)
      | some origin₀ =>
          rw [hfounder, Option.some_or] at h
          cases Option.some.inj h
          obtain ⟨hslot, s, filled, continues⟩ := stands.filled origin hfounder
          rw [Sim.Shared.offer_of_filled hslot] at hget
          exact ⟨(congrArg Sim.Shared.slot hget).trans hslot, s,
            (congrArg (Sim.Shared.cell id).get hget).trans filled, continues⟩
  have hkept (h : (place.get p.outside).slot = some id) : (place.get b).slot = some id := by
    rw [hget, Sim.Shared.offer_of_filled h, h]
  refine ⟨bare.empty, bare.filled, fun client h => ?_, fun client h => ?_⟩
  · rcases List.mem_append.mp h with h | h
    · exact ⟨hkept (stands.metrics client h).1, (stands.metrics client h).2⟩
    · obtain ⟨id₀, hslot, rfl⟩ := hms client h
      cases bare.slot_eq hslot
      exact ⟨hslot, rfl⟩
  · rcases List.mem_append.mp h with h | h
    · exact ⟨hkept (stands.scaling client h).1, (stands.scaling client h).2⟩
    · obtain ⟨id₀, hslot, rfl⟩ := hss client h
      cases bare.slot_eq hslot
      exact ⟨hslot, rfl⟩

/-- The simulations are used. -/
theorem use (new : List (Key × UInt32)) {b : β}
    (hget : ∃ sims, place.get b = { place.get p.outside with sims := sims })
    (hempty : (place.get p.outside).slot = none → new = [])
    (hfilled : ∀ origin, founder? tried = some origin →
      Sim.Continued (Sim.simulation place id) origin (Sim.latest (scalings ++ new)) b) :
    Stands place id tried (scalings ++ new) { p with outside := b } := by
  obtain ⟨sims, hget⟩ := hget
  have hslot : (place.get b).slot = (place.get p.outside).slot := by rw [hget]
  refine ⟨fun h => ?_, fun origin h => ?_, fun client h => ?_, fun client h => ?_⟩
  · obtain ⟨hnone, hnext, rfl⟩ := stands.empty h
    rw [hempty hnone, hget]
    exact ⟨hnone, hnext, rfl⟩
  · exact ⟨hslot.trans (stands.filled origin h).1, hfilled origin h⟩
  · exact ⟨hslot.trans (stands.metrics client h).1, (stands.metrics client h).2⟩
  · exact ⟨hslot.trans (stands.scaling client h).1, (stands.scaling client h).2⟩

end Stands

/-! ## Steps and runs -/

section Run

variable (lawful : place.Lawful)
include lawful

namespace Stands

variable {id : Nat} {tried : List Settings} {scalings : List (Key × UInt32)} {p : Provision β}
  (stands : Stands place id tried scalings p)
include stands

theorem makeMetrics (settings : Settings) :
    Stands place id (tried ++ [settings]) scalings
      (p.step (.makeMetrics settings : Event place)) := by
  have hget := Sim.get_metricsFactory lawful settings p.outside
  rcases hmake : Sim.metricsFactory place settings p.outside with ⟨made, b⟩
  rw [hmake, ← founder?_singleton] at hget
  have supplied := stands.supply made.toOption.toList [] hget (fun client h => ?_)
    (fun _ h => nomatch h)
  · simpa [Provision.step, hmake] using supplied
  · cases made with
    | error e => exact nomatch h
    | ok client₀ =>
        cases List.mem_singleton.mp h
        exact Sim.of_metricsFactory lawful hmake

omit lawful in
theorem makeScaling (settings : Settings) :
    Stands place id tried scalings (p.step (.makeScaling settings : Event place)) := by
  have hget : place.get (Sim.scalingFactory place settings p.outside).2 =
      (place.get p.outside).offer (founder? []) := by
    rw [Sim.apart_scalingFactory settings p.outside]
    exact (Sim.Shared.offer_none _).symm
  rcases hmake : Sim.scalingFactory place settings p.outside with ⟨made, b⟩
  rw [hmake] at hget
  have supplied := stands.supply [] made.toOption.toList hget (fun _ h => nomatch h)
    (fun client h => ?_)
  · simpa [Provision.step, hmake] using supplied
  · cases made with
    | error e => exact nomatch h
    | ok client₀ =>
        cases List.mem_singleton.mp h
        obtain ⟨rfl, handed⟩ := Sim.of_scalingFactory hmake
        exact handed

theorem resolve (registry : { r : Registry β // r.Hosts place }) (config : Config) :
    Stands place id (tried ++ (registry.1.payload? config p.outside).toList) scalings
      (p.step (.resolve registry config)) := by
  have hget := registry.2.get_resolve lawful config p.outside
  rw [← founder?_toList] at hget
  rcases hresolve : Backends.resolve registry.1 config p.outside with ⟨_ | backends, b⟩
  · -- nothing is handed out, but a simulation may have been made before it failed
    rw [hresolve] at hget
    have supplied := stands.supply [] [] hget (fun _ h => nomatch h) (fun _ h => nomatch h)
    simpa [Provision.step, hresolve] using supplied
  · rw [hresolve] at hget
    obtain ⟨hmetrics, hscaling⟩ := registry.2.of_resolve lawful hresolve
    have supplied := stands.supply
      (if Sim.chosen config.metrics then [backends.metrics] else [])
      (if Sim.chosen config.scaling then [backends.scaling] else []) hget
      (fun client h => ?_) (fun client h => ?_)
    · simpa [Provision.step, hresolve] using supplied
    · split_ifs at h with hchosen
      · cases List.mem_singleton.mp h
        exact hmetrics hchosen
      · exact nomatch h
    · split_ifs at h with hchosen
      · cases List.mem_singleton.mp h
        exact hscaling hchosen
      · exact nomatch h

theorem setScale (i : Nat) (k : Key) (target : Option Settings) (desired : UInt32) :
    let e : Event place := .setScale i k target desired
    Stands place id tried (scalings ++ p.scaled e) (p.step e) := by
  intro e
  cases hclient : p.scaling[i]? with
  | none => simpa [e, Provision.step, scaled, hclient] using stands
  | some client =>
      obtain ⟨hslot, rfl⟩ := stands.scaling client (List.mem_of_getElem? hclient)
      obtain ⟨origin, hfounder⟩ := stands.exists_filled fun h => nomatch hslot.symm.trans h
      obtain ⟨-, s, filled, continues⟩ := stands.filled origin hfounder
      have hhere := Sim.lawful_simulation lawful id
      by_cases known : origin.Simulates k
      · obtain ⟨b, s', hset, filled', -, continues'⟩ :=
          Sim.scalingClient_setScale hhere filled continues known target desired
        have hget : ∃ sims, place.get ((Sim.scalingClient (Sim.simulation place id)).setScale k
            target desired p.outside).2 = { place.get p.outside with sims := sims } :=
          Sim.exists_operate_eq lawful id _ p.outside
        rw [hset] at hget
        have used := stands.use [(k, desired)] hget (fun hnone => nomatch hslot.symm.trans hnone)
          (fun origin₀ h => ?_)
        · simpa [e, Provision.step, scaled, hclient, hset] using used
        · cases hfounder.symm.trans h
          exact ⟨s', filled', Sim.latest_concat scalings k desired ▸ continues'⟩
      · have unknown : ¬ s.Simulates k := fun h => known ((continues.simulates k).mp h)
        have hset := Sim.scalingClient_setScale_of_not_simulates hhere filled unknown target
          desired
        simpa [e, Provision.step, scaled, hclient, hset] using stands

theorem pass (nanos : Nat) :
    Stands place id tried scalings (p.step (.pass nanos : Event place)) := by
  have hget : place.get (p.step (.pass nanos : Event place)).outside =
      (place.get p.outside).pass nanos := lawful.get_put ..
  have used := stands.use [] ⟨_, hget⟩ (fun _ => rfl) (fun origin hfounder => ?_)
  · simpa [Provision.step] using used
  · obtain ⟨-, s, filled, continues⟩ := stands.filled origin hfounder
    refine ⟨s.pass nanos, ?_, by simpa using continues.pass nanos⟩
    have filled' : (Sim.Shared.cell id).get (place.get p.outside) = some s := filled
    show (Sim.Shared.cell id).get (place.get _) = _
    rw [hget, Sim.Shared.get_pass, filled']
    rfl

theorem step (e : Event place) :
    Stands place id (tried ++ p.payloads e) (scalings ++ p.scaled e) (p.step e) := by
  have hhere := Sim.lawful_simulation lawful id
  cases e with
  | makeMetrics settings => simpa [payloads, scaled] using stands.makeMetrics lawful settings
  | makeScaling settings => simpa [payloads, scaled] using stands.makeScaling settings
  | resolve registry config => simpa [payloads, scaled] using stands.resolve lawful registry config
  | setScale i k target desired =>
      simpa [payloads] using stands.setScale lawful i k target desired
  | getScale i k target =>
      cases hclient : p.scaling[i]? with
      | none => simpa [Provision.step, payloads, scaled, hclient] using stands
      | some client =>
          obtain ⟨-, rfl⟩ := stands.scaling client (List.mem_of_getElem? hclient)
          have hsame : ((Sim.scalingClient (Sim.simulation place id)).getScale k target
              p.outside).2 = p.outside := Sim.operate_ask hhere _
          simpa [Provision.step, payloads, scaled, hclient, hsame] using stands
  | getMetric i metric k settings =>
      cases hclient : p.metrics[i]? with
      | none => simpa [Provision.step, payloads, scaled, hclient] using stands
      | some client =>
          obtain ⟨-, rfl⟩ := stands.metrics client (List.mem_of_getElem? hclient)
          have hsame : ((Sim.metricsClient (Sim.simulation place id)).getMetric metric k settings
              p.outside).2 = p.outside := Sim.operate_ask hhere _
          simpa [Provision.step, payloads, scaled, hclient, hsame] using stands
  | pass nanos => simpa [payloads, scaled] using stands.pass lawful nanos

omit stands in
theorem run (stands : Stands place id tried scalings p) (events : List (Event place)) :
    Stands place id (tried ++ p.tried events) (scalings ++ p.scalings events) (p.run events) := by
  induction events generalizing tried scalings p with
  | nil => simpa [Provision.tried, Provision.scalings, notes, Provision.run] using stands
  | cons e rest ih =>
      have hrest := ih (stands.step lawful e)
      rwa [List.append_assoc, List.append_assoc] at hrest

/-- Whatever half it is asked through, the simulation answers with its number of instances. -/
theorem clients {s : Sim} (filled : (Sim.simulation place id).get p.outside = some s)
    (continues : s.Continues s (Sim.latest scalings)) {k : Key} {t : Sim.Target}
    (filed : s.target k = .ok t) :
    let b := p.outside
    let n := Sim.latest scalings k
    (∀ client ∈ p.scaling, ∀ target, client.getScale k target b = (.ok ⟨some n, some n⟩, b)) ∧
    (∀ client ∈ p.metrics, ∀ settings, client.getMetric s.metricName k settings b =
      (Sim.failure (t.values n s.elapsed), b)) ∧
    ∀ client ∈ p.scaling, ∀ target n,
      ∃ after, client.setScale k target n b = (.ok (), after) ∧
        (∀ other ∈ p.scaling, ∀ target,
          other.getScale k target after = (.ok ⟨some n, some n⟩, after)) ∧
        ∀ other ∈ p.metrics, ∀ settings, other.getMetric s.metricName k settings after =
          (Sim.failure (t.values n s.elapsed), after) := by
  intro b n
  have hhere := Sim.lawful_simulation lawful id
  have known : s.Simulates k := ⟨t, filed⟩
  refine ⟨fun client hclient target => ?_, fun client hclient settings => ?_,
    fun client hclient target desired => ?_⟩
  · obtain ⟨-, rfl⟩ := stands.scaling client hclient
    exact Sim.scalingClient_getScale hhere filled continues known target
  · obtain ⟨-, rfl⟩ := stands.metrics client hclient
    exact Sim.metricsClient_getMetric hhere filled continues filed settings
  · obtain ⟨-, rfl⟩ := stands.scaling client hclient
    obtain ⟨after, s', hset, filled', helapsed, continues'⟩ :=
      Sim.scalingClient_setScale hhere filled continues known target desired
    have hcount : Function.update (Sim.latest scalings) k desired k = desired :=
      Function.update_self ..
    refine ⟨after, hset, fun other hother target => ?_, fun other hother settings => ?_⟩
    · obtain ⟨-, rfl⟩ := stands.scaling other hother
      rw [Sim.scalingClient_getScale hhere filled' continues' known target, hcount]
    · obtain ⟨-, rfl⟩ := stands.metrics other hother
      rw [Sim.metricsClient_getMetric hhere filled' continues' filed settings, hcount, helapsed]

end Stands

end Run

/-- **The simulation is set once.**  Let the slot be empty, and let the halves of the simulation be
made any number of times, directly or in the making of backends, and used meanwhile.  The slot is
empty as long as all metrics settings that were tried are bad.  The first good ones fill it, and the
simulation that is made from them stays there whatever follows, with other numbers of instances.

As long as the slot is empty, bad metrics settings fail with the error of their own, good ones put
their simulation there, and no scaling half is made.  Once it is filled, both halves are made from
any settings, and nothing changes.  The making of backends does just this where it makes the two
halves, and nothing else to what they share, wherever it ends.

All halves that were handed out hold on to the one simulation that is in the slot: of each simulated
autoscaler they report the number of instances that was set last, through any of them, and the
metric is made from it; and when it is set through one of them, all of them show it. -/
theorem set_once (lawful : place.Lawful) (start : β) (empty : (place.get start).slot = none)
    (history : List (Event place)) :
    let fresh : Provision β := ⟨start, [], []⟩
    let p := fresh.run history
    let b := p.outside
    let slot := (place.get b).slot
    let id := (place.get start).next
    let here := Sim.simulation place id
    let count := Sim.latest (fresh.scalings history)
    (slot = none ↔ ∀ settings ∈ fresh.tried history, ∃ e, Sim.made settings = .error e) ∧
    (∀ earlier settings later origin, fresh.tried history = earlier ++ settings :: later →
      (∀ x ∈ earlier, ∃ e, Sim.made x = .error e) → Sim.made settings = .ok origin →
      ∀ more,
        let after := (fresh.run (history ++ more)).outside
        (place.get after).slot = some id ∧
          Sim.Continued here origin (Sim.latest (fresh.scalings (history ++ more))) after) ∧
    (∀ settings,
      (slot = none → ∀ e, Sim.made settings = .error e →
        Sim.metricsFactory place settings b = (.error e, b)) ∧
      (slot = none → ∀ origin, Sim.made settings = .ok origin →
        Sim.metricsFactory place settings b =
          (.ok (Sim.metricsClient here), place.put ((place.get b).install origin) b)) ∧
      (slot ≠ none → Sim.metricsFactory place settings b = (.ok (Sim.metricsClient here), b))) ∧
    (∀ settings,
      (slot = none → Sim.scalingFactory place settings b =
        (.error (.invalidConfig .scaling Sim.typeId SimError.notConfigured.message), b)) ∧
      (slot ≠ none → Sim.scalingFactory place settings b = (.ok (Sim.scalingClient here), b))) ∧
    (∀ (r : Registry β) (c : Config), r.Hosts place →
      (∀ settings, settings.typeId = Sim.typeId →
        r.resolveMetrics settings = Sim.metricsFactory place settings ∧
        r.resolveScaling settings = Sim.scalingFactory place settings) ∧
      place.get (Backends.resolve r c b).2 =
        (place.get b).offer ((r.payload? c b).bind fun settings => (Sim.made settings).toOption) ∧
      (slot = none → ∀ settings e, r.payload? c b = some settings →
        Sim.made settings = .error e → (Backends.resolve r c b).1 = .error e)) ∧
    (∀ client ∈ p.metrics, slot = some id ∧ client = Sim.metricsClient here) ∧
    (∀ client ∈ p.scaling, slot = some id ∧ client = Sim.scalingClient here) ∧
    (slot ≠ none → ∃ s, here.get b = some s ∧ ∀ k t, s.target k = .ok t →
      (∀ client ∈ p.scaling, ∀ target,
        client.getScale k target b = (.ok ⟨some (count k), some (count k)⟩, b)) ∧
      (∀ client ∈ p.metrics, ∀ settings, client.getMetric s.metricName k settings b =
        (Sim.failure (t.values (count k) s.elapsed), b)) ∧
      ∀ client ∈ p.scaling, ∀ target n,
        ∃ after, client.setScale k target n b = (.ok (), after) ∧
          (∀ other ∈ p.scaling, ∀ target,
            other.getScale k target after = (.ok ⟨some n, some n⟩, after)) ∧
          ∀ other ∈ p.metrics, ∀ settings, other.getMetric s.metricName k settings after =
            (Sim.failure (t.values n s.elapsed), after)) := by
  intro fresh p b slot id here count
  have stands (events : List (Event place)) :
      Stands place id (fresh.tried events) (fresh.scalings events) (fresh.run events) := by
    have hfresh : Stands place id [] [] fresh :=
      ⟨fun _ => ⟨empty, rfl, rfl⟩, nofun, nofun, nofun⟩
    exact hfresh.run lawful events
  have now := stands history
  have hfilled (hslot : slot ≠ none) : slot = some id := by
    obtain ⟨origin, hfounder⟩ := now.exists_filled hslot
    exact (now.filled origin hfounder).1
  refine ⟨?_, ?_, fun settings => ⟨?_, ?_, ?_⟩, fun settings => ⟨?_, ?_⟩,
    fun r c hosts => ⟨fun settings hid => ⟨?_, ?_⟩, ?_, ?_⟩, now.metrics, now.scaling, ?_⟩
  · rw [← now.founder?_eq_none, founder?_eq_none_iff]
  · intro earlier settings later origin htried bad good more
    have htried' : fresh.tried (history ++ more) =
        earlier ++ settings :: (later ++ p.tried more) := by
      have happend : fresh.tried (history ++ more) = fresh.tried history ++ p.tried more :=
        notes_append ..
      rw [happend, htried, List.append_assoc, List.cons_append]
    exact (stands (history ++ more)).filled origin (htried' ▸ founder?_of_made bad good)
  · exact fun hslot e bad => Sim.metricsFactory_of_refused hslot bad
  · intro hslot origin good
    -- the next number is the one that the simulation will have
    have hnext : (place.get b).next = id := (now.empty (now.founder?_eq_none.mpr hslot)).2.1
    rw [Sim.metricsFactory_of_made hslot good, hnext]
  · exact fun hslot => Sim.metricsFactory_of_filled (hfilled hslot) settings
  · exact fun hslot => Sim.scalingFactory_of_empty hslot settings
  · exact fun hslot => Sim.scalingFactory_of_filled (hfilled hslot) settings
  · exact funext (hosts.resolveMetrics_eq hid)
  · exact funext (hosts.resolveScaling_eq hid)
  · exact hosts.get_resolve lawful c b
  · exact fun hslot settings e payload bad => hosts.resolve_of_refused hslot payload bad
  · intro hslot
    obtain ⟨origin, hfounder⟩ := now.exists_filled hslot
    obtain ⟨-, s, filled, continues⟩ := now.filled origin hfounder
    exact ⟨s, filled, fun k t filed => now.clients lawful filled continues.self filed⟩

/-- Metrics settings that make a small simulation. -/
def smallSettings : Settings := ⟨Sim.typeId, .ofJson Sim.eighth.toJson⟩

/-- Backends cannot be made, then neither half can be, then the metrics half is made from good
settings and the scaling half from others; the scaling half is used. -/
def smallProvision : List (Event (Place.whole : Place Sim.Shared Sim.Shared)) :=
  [.resolve (Registry.builtinHost Place.whole)
      { storage := none, metrics := some smallSettings, scaling := none, events := none },
    .makeScaling smallSettings, .makeMetrics ⟨Sim.typeId, .null⟩, .makeMetrics smallSettings,
    .makeScaling ⟨Sim.typeId, .null⟩, .setScale 0 ⟨"ns", "a"⟩ none 3]

/-- Another metrics half is made from bad settings afterwards.  The scaling half tells what was set,
and each of the three instances bears four whole percents. -/
theorem set_once_small :
    let b := ((Provision.mk .empty [] []).run smallProvision).outside
    let here := Sim.simulation (Place.whole : Place Sim.Shared Sim.Shared) 0
    Sim.Shared.empty.slot = none ∧
      Sim.metricsFactory Place.whole ⟨Sim.typeId, .null⟩ b = (.ok (Sim.metricsClient here), b) ∧
      (Sim.scalingClient here).getScale ⟨"ns", "a"⟩ none b = (.ok ⟨some 3, some 3⟩, b) ∧
      (Sim.metricsClient here).getMetric "load" ⟨"ns", "a"⟩ none b = (.ok [4000], b) := by
  intro b here
  obtain ⟨-, -, hmetrics, -, -, -, -, hclients⟩ :=
    set_once Place.lawful_whole .empty rfl smallProvision
  have filled : here.get b = some { Sim.eighthBorne with
      instances := Sim.eighthBorne.instances.insert ⟨"ns", "a"⟩ 3 } := rfl
  have hslot : b.slot = some 0 := rfl
  have hne : b.slot ≠ none := fun hnone => nomatch hslot.symm.trans hnone
  obtain ⟨s, hs, told⟩ := hclients hne
  cases filled.symm.trans hs
  obtain ⟨hscale, hmetric, -⟩ := told ⟨"ns", "a"⟩ ⟨8.0, [⟨1000, 1.0⟩], 1000⟩ rfl
  have hvalue : Sim.metricValue 1.0 3 8.0 = 4000 := by decide +kernel
  refine ⟨rfl, (hmetrics ⟨Sim.typeId, .null⟩).2.2 hne,
    hscale (Sim.scalingClient here) (List.mem_singleton_self _) none, ?_⟩
  rw [← hvalue]
  exact hmetric (Sim.metricsClient here) (List.mem_singleton_self _) none

end Provision

end Autoscaling
