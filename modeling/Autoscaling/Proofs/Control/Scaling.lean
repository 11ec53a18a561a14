import Autoscaling.Proofs.Control.Addressing
import Autoscaling.Proofs.Control.Notification
import Autoscaling.Proofs.Selector.Replicas
import Autoscaling.Proofs.Sim.Curve
import Autoscaling.Provider.Builtin

/-!
# Scaling what is simulated

The engine scales the target of an autoscaler that is stored, and a simulation scales what it was
made for.  The store and the simulation know nothing of each other: an autoscaler may be stored and
not simulated, or the other way round, and it may come and go in the store while its instances stay.

`Site.scaled_as_set_last` says what the engine meets at a site with a simulation, whatever has been
done before: what can be scaled, why the rest cannot, and that the scale of an autoscaler is the one
that was last set for its key.  The simulation is the one that the site started with, with other
numbers of instances (`Site.continued_scaleRun`).
-/

namespace Autoscaling

/-- Something that is done at a site with a simulation. -/
inductive ScalingAction where
  /-- an action on the store, with those being told who are to know of it -/
  | act (a : Action)
  | setScale (k : Key) (desired : UInt32)
  | getScale (k : Key)
  | metric (metric ns : String) (selector : Selector)
  /-- time goes by -/
  | pass (nanos : Nat)

namespace Site

variable {β : Type}

/-! ## Questions to a simulation -/

section Questions

variable {place : Place β (Option Sim)} (lawful : place.Lawful) {s : Site β} {k : Key}

theorem setScale_of_not_live (scaling : ScalingClient β) (dead : ¬ s.store.Live k)
    (desired : UInt32) :
    setScale scaling k desired s = (.error (.state (Store.notFound k)), s) := by
  rw [setScale, lookup, Store.get_eq, Store.not_live_iff.mp dead]

theorem getScale_of_not_live (scaling : ScalingClient β) (dead : ¬ s.store.Live k) :
    getScale scaling k s = (.error (.state (Store.notFound k)), s) := by
  rw [getScale, lookup, Store.get_eq, Store.not_live_iff.mp dead]

theorem setScale_of_live (scaling : ScalingClient β) (live : s.store.Live k) (desired : UInt32) :
    ∃ settings, setScale scaling k desired s =
      call (scaling.setScale k settings desired) s := by
  obtain ⟨a, stored⟩ := live
  exact ⟨a.spec.target, by rw [setScale, lookup, stored]⟩

theorem metricOf_of_live (metrics : MetricsClient β) (metric : String) (live : s.store.Live k) :
    ∃ settings, metricOf metrics metric k s = call (metrics.getMetric metric k settings) s := by
  obtain ⟨a, stored⟩ := live
  exact ⟨a.spec.metricSettings? metric, by rw [metricOf, lookup, stored]⟩

include lawful

variable {sim : Sim} (filled : place.get s.outside = some sim)
include filled

theorem getScale_sim (live : s.store.Live k) :
    getScale (Sim.scalingClient place) k s =
      ((Sim.failure (sim.instancesOf k)).mapError ProviderError.backend |>.map fun n =>
        ⟨k, n, n, Carrier.encodeReplicas n⟩, s) := by
  obtain ⟨a, stored⟩ := live
  have hask := Sim.operate_ask_of_get lawful filled fun sim => do
    let n ← sim.instancesOf k
    .ok (⟨some n, some n⟩ : Scale)
  rw [getScale, lookup, stored]
  simp only [call_eq, Sim.scalingClient, hask]
  cases sim.instancesOf k <;> rfl

theorem metricOf_sim (metric : String) (live : s.store.Live k) :
    metricOf (Sim.metricsClient place) metric k s =
      ((Sim.failure (sim.getMetric metric k)).mapError .backend, s) := by
  obtain ⟨settings, hcall⟩ := metricOf_of_live (Sim.metricsClient place) metric live
  rw [hcall, call_eq]
  simp only [Sim.metricsClient, Sim.operate_ask_of_get lawful filled]

omit lawful in
theorem setScale_sim (live : s.store.Live k) (desired : UInt32) :
    setScale (Sim.scalingClient place) k desired s =
      ((Sim.failure (Sim.setScale k desired sim).1).mapError .backend,
        { s with outside := place.put (some (Sim.setScale k desired sim).2) s.outside }) := by
  obtain ⟨settings, hcall⟩ := setScale_of_live (Sim.scalingClient place) live desired
  rw [hcall, call_eq]
  simp only [Sim.scalingClient, Sim.operate_act_of_get filled]

/-- To ask for a scale changes nothing. -/
theorem getScale_snd (k : Key) : (getScale (Sim.scalingClient place) k s).2 = s := by
  by_cases live : s.store.Live k
  · rw [getScale_sim lawful filled live]
  · rw [getScale_of_not_live _ live]

/-- To ask for a metric changes nothing. -/
theorem eq_of_externalMetric {metric ns : String} {selector : Selector} {after : Site β}
    {answer : Except ProviderError (List Int64)}
    (h : externalMetric (Sim.metricsClient place) metric ns selector s = .ok (answer, after)) :
    after = s := by
  cases hdecode : Carrier.autoscaler.decode selector with
  | error e =>
      rw [externalMetric, hdecode] at h
      cases h
  | ok name =>
      rw [externalMetric, hdecode] at h
      have hanswer : metricOf (Sim.metricsClient place) metric ⟨ns, name⟩ s = (answer, after) :=
        Except.ok.inj h
      by_cases live : s.store.Live ⟨ns, name⟩
      · rw [metricOf_sim lawful filled metric live] at hanswer
        exact (congrArg Prod.snd hanswer).symm
      · rw [metricOf_of_not_live _ _ live] at hanswer
        exact (congrArg Prod.snd hanswer).symm

end Questions

/-! ## What becomes of the simulation -/

variable (storage : StorageClient β) (place : Place β (Option Sim))

/-- What becomes of a site. -/
def scaleStep (s : Site β) : ScalingAction → Site β
  | .act a => s.act storage a
  | .setScale k desired => (setScale (Sim.scalingClient place) k desired s).2
  | .getScale k => (getScale (Sim.scalingClient place) k s).2
  | .metric metric ns selector =>
      match externalMetric (Sim.metricsClient place) metric ns selector s with
      | .ok (_, s) => s
      -- an abort ends the one who asks
      | .error _ => s
  | .pass nanos =>
      { s with outside := place.put ((place.get s.outside).map (Sim.pass · nanos)) s.outside }

/-- The scaling that is done by an action, if it succeeds. -/
def scaled (s : Site β) : ScalingAction → List (Key × UInt32)
  | .setScale k desired =>
      match (setScale (Sim.scalingClient place) k desired s).1 with
      | .ok () => [(k, desired)]
      | .error _ => []
  | _ => []

/-- Do several things, one after the other. -/
def scaleRun (s : Site β) (actions : List ScalingAction) : Site β :=
  actions.foldl (scaleStep storage place) s

/-- The scalings that succeed in a run, in their order. -/
def scalings (s : Site β) (actions : List ScalingAction) : List (Key × UInt32) :=
  notes (scaleStep storage place) (scaled place) s actions

variable {storage place} (lawful : place.Lawful)

/-- Whoever is told of a status has no part in the simulation. -/
theorem get_outside_act (apart : ∀ a b, place.get (storage.statusUpdated a b) = place.get b)
    (a : Action) (s : Site β) :
    place.get (s.act storage a).outside = place.get s.outside := by
  have htell (notifications : List Notification) (s : Site β) :
      place.get (notifications.foldl (tell storage) s).outside = place.get s.outside := by
    induction notifications generalizing s with
    | nil => rfl
    | cons n rest ih =>
        rw [List.foldl_cons, ih]
        cases n with
        | handler a => exact apart a s.outside
        | listener name a => rfl
  unfold act
  split
  · rw [htell]
  · rfl

section Run

variable (apart : ∀ a b, place.get (storage.statusUpdated a b) = place.get b)
include lawful

/-- Scaling succeeds for what is stored and simulated, and sets the number of instances; otherwise
it fails for the first of the two that is wanting, and changes nothing. -/
theorem setScale_cases {origin : Sim} {counts : Key → UInt32} {s : Site β}
    (continued : Sim.Continued place origin counts s.outside) (k : Key) (desired : UInt32) :
    (¬ s.store.Live k ∧ setScale (Sim.scalingClient place) k desired s =
        (.error (.state (Store.notFound k)), s)) ∨
      (s.store.Live k ∧ ¬ origin.Simulates k ∧ setScale (Sim.scalingClient place) k desired s =
        (.error (.backend (.ofText (SimError.unknownTarget k).message)), s)) ∨
      (s.store.Live k ∧ origin.Simulates k ∧ ∃ b,
        setScale (Sim.scalingClient place) k desired s = (.ok (), { s with outside := b }) ∧
        Sim.Continued place origin (Function.update counts k desired) b) := by
  obtain ⟨sim, filled, continues⟩ := continued
  by_cases live : s.store.Live k
  · obtain ⟨settings, hcall⟩ := setScale_of_live (Sim.scalingClient place) live desired
    by_cases known : origin.Simulates k
    · obtain ⟨b, sim', hset, filled', -, continues'⟩ :=
        Sim.scalingClient_setScale lawful filled continues known settings desired
      refine .inr (.inr ⟨live, known, b, ?_, sim', filled', continues'⟩)
      rw [hcall, call_eq, hset]
      rfl
    · refine .inr (.inl ⟨live, known, ?_⟩)
      have unknown : ¬ sim.Simulates k := fun h => known ((continues.simulates k).mp h)
      rw [hcall, call_eq,
        Sim.scalingClient_setScale_of_not_simulates lawful filled unknown settings desired]
      rfl
  · exact .inl ⟨live, setScale_of_not_live _ live desired⟩

include apart

theorem continued_scaleStep {origin : Sim} {log : List (Key × UInt32)} {s : Site β}
    (continued : Sim.Continued place origin (Sim.latest log) s.outside) (a : ScalingAction) :
    Sim.Continued place origin (Sim.latest (log ++ s.scaled place a))
      (s.scaleStep storage place a).outside := by
  cases a with
  | act a =>
      obtain ⟨sim, filled, continues⟩ := continued
      refine ⟨sim, ?_, by simpa [scaled] using continues⟩
      rw [scaleStep, get_outside_act apart, filled]
  | setScale k desired =>
      -- a scaling that fails is not in the log and leaves the counts as they are
      rw [scaleStep, scaled]
      rcases setScale_cases lawful continued k desired with
        ⟨-, hset⟩ | ⟨-, -, hset⟩ | ⟨-, -, b, hset, continued'⟩
      · simpa [hset] using continued
      · simpa [hset] using continued
      · simpa [hset, Sim.latest_concat] using continued'
  | getScale k =>
      obtain ⟨sim, filled, -⟩ := id continued
      rw [scaleStep, getScale_snd lawful filled]
      simpa [scaled] using continued
  | metric metric ns selector =>
      obtain ⟨sim, filled, -⟩ := id continued
      have hsame : s.scaleStep storage place (.metric metric ns selector) = s := by
        rw [scaleStep]
        split
        · next h => exact eq_of_externalMetric lawful filled h
        · rfl
      rw [hsame]
      simpa [scaled] using continued
  | pass nanos =>
      obtain ⟨sim, filled, continues⟩ := continued
      refine ⟨sim.pass nanos, ?_, by simpa [scaled] using continues.pass nanos⟩
      rw [scaleStep, lawful.get_put, filled]
      rfl

/-- The simulation at a site goes on with the numbers of instances that are set. -/
theorem continued_scaleRun {origin : Sim} {log : List (Key × UInt32)} {s : Site β}
    (continued : Sim.Continued place origin (Sim.latest log) s.outside)
    (actions : List ScalingAction) :
    Sim.Continued place origin (Sim.latest (log ++ s.scalings storage place actions))
      (s.scaleRun storage place actions).outside := by
  induction actions generalizing log s with
  | nil => simpa [scalings, notes, scaleRun] using continued
  | cons a rest ih =>
      have hrest := ih (continued_scaleStep lawful apart continued a)
      rwa [List.append_assoc] at hrest

omit apart in
/-- Whether one autoscaler is scaled makes no difference to what is said of another one. -/
theorem setScale_apart {s : Site β} {sim : Sim} (filled : place.get s.outside = some sim)
    {k k₀ : Key} (hk : k₀ ≠ k) (desired : UInt32) :
    let scaling := Sim.scalingClient place
    let after := (setScale scaling k desired s).2
    (getScale scaling k₀ after).1 = (getScale scaling k₀ s).1 ∧
      (∀ metric, (metricOf (Sim.metricsClient place) metric k₀ after).1 =
        (metricOf (Sim.metricsClient place) metric k₀ s).1) ∧
      ∀ n, (setScale scaling k₀ n after).1 = (setScale scaling k₀ n s).1 := by
  intro scaling after
  by_cases live : s.store.Live k
  · have hafter : after = { s with
        outside := place.put (some (Sim.setScale k desired sim).2) s.outside } := by
      simp only [after, scaling, setScale_sim filled live desired]
    have filled' : place.get after.outside = some (Sim.setScale k desired sim).2 := by
      rw [hafter, lawful.get_put]
    have hstore : after.store = s.store := by rw [hafter]
    obtain ⟨hinstances, hmetric, hset⟩ := Sim.setScale_apart hk desired sim
    by_cases live₀ : s.store.Live k₀
    · have live₀' : after.store.Live k₀ := hstore ▸ live₀
      refine ⟨?_, fun metric => ?_, fun n => ?_⟩
      · rw [getScale_sim lawful filled live₀, getScale_sim lawful filled' live₀', hinstances]
      · rw [metricOf_sim lawful filled metric live₀, metricOf_sim lawful filled' metric live₀',
          hmetric]
      · rw [setScale_sim filled live₀, setScale_sim filled' live₀', hset]
    · have dead' : ¬ after.store.Live k₀ := hstore ▸ live₀
      refine ⟨?_, fun metric => ?_, fun n => ?_⟩
      · rw [getScale_of_not_live _ live₀, getScale_of_not_live _ dead']
      · rw [metricOf_of_not_live _ _ live₀, metricOf_of_not_live _ _ dead']
      · rw [setScale_of_not_live _ live₀, setScale_of_not_live _ dead']
  · have hafter : after = s := by simp only [after, setScale_of_not_live _ live]
    rw [hafter]
    exact ⟨rfl, fun _ => rfl, fun _ => rfl⟩

end Run

/-- **What is simulated is scaled as it was set last.**  Let a simulation that was made from
accepted settings be in its place, and let anything be done at the site: mutations of the store and
everything else that can be done with it, scalings and questions, and time may go by.  An autoscaler
can be scaled now exactly if it is stored and the settings name it.  If it is not stored, it was not
found, whether the settings name it or not; if it is stored only, the backend fails; and in both
cases nothing has changed.

The scale of an autoscaler that is stored and simulated is the number that was set by the last of
the scalings of its key that succeeded, or one if there was none, however often it came and went in
the store, and the selector is read as this number.  Its metric has no value if the number is zero,
and one value otherwise, provided that the length of its curve fits a word of 64 bits.  Questions
change nothing, and to scale one autoscaler changes neither the store nor any answer about another
one. -/
theorem scaled_as_set_last (storage : StorageClient β) (lawful : place.Lawful)
    (apart : ∀ a b, place.get (storage.statusUpdated a b) = place.get b)
    {c : Sim.Config} {sim : Sim} (accepted : Sim.create c = .ok sim) (start : Site β)
    (filled : place.get start.outside = some sim) (history : List ScalingAction) :
    let site := start.scaleRun storage place history
    let count := Sim.latest (start.scalings storage place history)
    let scaling := Sim.scalingClient place
    let metrics := Sim.metricsClient place
    (∀ k desired,
      ((setScale scaling k desired site).1 = .ok () ↔ site.store.Live k ∧ c.Simulates k) ∧
      (¬ site.store.Live k →
        setScale scaling k desired site = (.error (.state (Store.notFound k)), site)) ∧
      (site.store.Live k → ¬ c.Simulates k → setScale scaling k desired site =
        (.error (.backend (.ofText (SimError.unknownTarget k).message)), site))) ∧
    (∀ k, site.store.Live k → c.Simulates k →
      (∃ shown, getScale scaling k site = (.ok shown, site) ∧ shown.key = k ∧
        shown.desired = count k ∧ shown.current = count k ∧
        Carrier.decodeReplicas shown.selector = .ok (count k)) ∧
      let asked :=
        externalMetric metrics c.metricName k.ns (Carrier.autoscaler.encode k.name) site
      (count k = 0 → asked = .ok (.ok [], site)) ∧
      (count k ≠ 0 → (∀ t, sim.target k = .ok t → Sim.total t.curve < UInt64.size) →
        ∃ v, asked = .ok (.ok [v], site))) ∧
    (∀ k, (getScale scaling k site).2 = site) ∧
    (∀ metric ns selector answer after,
      externalMetric metrics metric ns selector site = .ok (answer, after) → after = site) ∧
    ∀ k desired,
      let after := (setScale scaling k desired site).2
      after.store = site.store ∧ ∀ k₀, k₀ ≠ k →
        (getScale scaling k₀ after).1 = (getScale scaling k₀ site).1 ∧
        (∀ metric, (metricOf metrics metric k₀ after).1 = (metricOf metrics metric k₀ site).1) ∧
        ∀ n, (setScale scaling k₀ n after).1 = (setScale scaling k₀ n site).1 := by
  intro site count scaling metrics
  have atStart : Sim.Continued place sim (Sim.latest []) start.outside :=
    ⟨sim, filled, Sim.continues_create accepted⟩
  have continued : Sim.Continued place sim count site.outside :=
    continued_scaleRun lawful apart atStart history
  have hcases := setScale_cases lawful continued
  have hknown (k : Key) : sim.Simulates k ↔ c.Simulates k := Sim.simulates_create accepted k
  obtain ⟨now, filledNow, continues⟩ := id continued
  refine ⟨fun k desired => ?_, fun k live known => ⟨?_, ?_⟩,
    fun k => getScale_snd lawful filledNow k,
    fun _ _ _ _ _ h => eq_of_externalMetric lawful filledNow h,
    fun k desired => ⟨?_, fun k₀ hk => ?_⟩⟩
  · rw [← hknown]
    rcases hcases k desired with ⟨dead, hset⟩ | ⟨live, unknown, hset⟩ | ⟨live, known, b, hset, -⟩
    · simp [scaling, hset, dead]
    · simp [scaling, hset, live, unknown]
    · simp [scaling, hset, live, known]
  · refine ⟨⟨k, count k, count k, Carrier.encodeReplicas (count k)⟩, ?_, rfl, rfl, rfl, ?_⟩
    · rw [getScale_sim lawful filledNow live, continues.instancesOf ((hknown k).mpr known)]
      rfl
    · exact Carrier.decodeReplicas_encodeReplicas (count k)
  · intro asked
    obtain ⟨t, filed⟩ := (hknown k).mpr known
    have hasked : asked =
        .ok ((Sim.failure (t.values (count k) now.elapsed)).mapError .backend, site) := by
      show externalMetric _ _ _ _ _ = _
      rw [externalMetric, Carrier.decode_encode]
      show Except.ok (metricOf metrics c.metricName k site) = _
      rw [metricOf_sim lawful filledNow _ live, ← Sim.metricName_create accepted,
        continues.getMetric filed]
    refine ⟨fun hzero => ?_, fun hpos fits => ?_⟩
    · rw [hasked, Sim.Target.values, if_pos hzero]
      rfl
    · have lasts := Sim.lasts_of_create accepted filed
      obtain ⟨i, -, -, hload⟩ := lasts.exists_loadAt_eq (fits t filed) now.elapsed
      rw [hasked, Sim.Target.values, if_neg hpos, hload]
      exact ⟨_, rfl⟩
  · rcases hcases k desired with ⟨-, hset⟩ | ⟨-, -, hset⟩ | ⟨-, -, b, hset, -⟩ <;>
      simp [scaling, hset]
  · exact setScale_apart lawful filledNow hk desired

/-- A site whose simulation is for one autoscaler, which is not stored yet. -/
def freshSimulated : Site (Option Sim) :=
  ⟨Store.create ⟨1, .disconnect⟩ false, some Sim.eighthBorne, []⟩

/-- The autoscaler that is simulated there. -/
def simulatedSpec : Spec := ⟨"ns", "a", none, 5, [⟨"load", 1, none⟩], none, none⟩

/-- The autoscaler is stored and scaled, deleted, not scaled, and stored again. -/
def returned : List ScalingAction :=
  [.act (.mutate (.add (.declared simulatedSpec))), .setScale ⟨"ns", "a"⟩ 3,
    .act (.mutate (.delete ⟨"ns", "a"⟩)), .setScale ⟨"ns", "a"⟩ 4,
    .act (.mutate (.add (.declared simulatedSpec))), .pass 1]

/-- It has the instances that it had before. -/
theorem scaled_as_set_last_returned :
    let site := freshSimulated.scaleRun (Inline.client []) Place.whole returned
    site.store.Live ⟨"ns", "a"⟩ ∧ Sim.eighth.Simulates ⟨"ns", "a"⟩ ∧
      ∃ shown, getScale (Sim.scalingClient Place.whole) ⟨"ns", "a"⟩ site = (.ok shown, site) ∧
        shown.desired = 3 ∧ shown.current = 3 ∧
        Carrier.decodeReplicas shown.selector = .ok 3 := by
  intro site
  have live : site.store.Live ⟨"ns", "a"⟩ := ⟨⟨simulatedSpec, Status.initial, 3⟩, rfl⟩
  have known : Sim.eighth.Simulates ⟨"ns", "a"⟩ := ⟨_, List.mem_singleton_self _, rfl⟩
  have scaled := scaled_as_set_last (Inline.client []) Place.lawful_whole (fun _ _ => rfl)
    Sim.create_eighth freshSimulated rfl returned
  obtain ⟨⟨shown, hshown, -, hdesired, hcurrent, hread⟩, -⟩ := scaled.2.1 ⟨"ns", "a"⟩ live known
  exact ⟨live, known, shown, hshown, hdesired, hcurrent, hread⟩

end Site

end Autoscaling
