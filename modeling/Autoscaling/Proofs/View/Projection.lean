import Autoscaling.Proofs.View.Translation

/-!
# What a view hides

A view leaves out the settings of backends, and it shows an absent number of replicas as zero and
the scaling time zero as an absent one.  Everything else of an autoscaler can be told from its view:
no table of names has a name twice, nothing is dropped from a list, and a rule that is absent is not
shown as one that says nothing.  `Autoscaler.views_tell_apart` puts this together: the views of two
autoscalers are equal exactly if the autoscalers are `Autoscaler.Alike`.
-/

namespace Autoscaling

/-- Two autoscalers agree in everything but the settings of backends, where an absent current number
of replicas counts as zero. -/
structure Autoscaler.Alike (a b : Autoscaler) : Prop where
  ns : a.spec.ns = b.spec.ns
  name : a.spec.name = b.spec.name
  version : a.version = b.version
  minReplicas : a.spec.minReplicas = b.spec.minReplicas
  maxReplicas : a.spec.maxReplicas = b.spec.maxReplicas
  /-- in their order, without their settings -/
  metrics : (a.spec.metrics.map fun m => (m.name, m.target)) =
    b.spec.metrics.map fun m => (m.name, m.target)
  /-- with all of its rules and policies -/
  behavior : a.spec.behavior = b.spec.behavior
  currentScale : a.status.currentScale.getD 0 = b.status.currentScale.getD 0
  desiredScale : a.status.desiredScale = b.status.desiredScale
  conditions : a.status.conditions = b.status.conditions
  lastScaleTime : a.status.lastScaleTime = b.status.lastScaleTime

namespace View

/-! ## Behaviors -/

theorem selectPolicyName_injective : Function.Injective selectPolicyName := by
  intro p q h
  revert h
  cases p <;> cases q <;> decide

theorem policyTypeName_injective : Function.Injective policyTypeName := by
  intro p q h
  revert h
  cases p <;> cases q <;> decide

theorem Policy.of_injective : Function.Injective Policy.of := by
  rintro ⟨kind, value, period⟩ ⟨kind₀, value₀, period₀⟩ h
  obtain ⟨hkind, rfl, rfl⟩ := Policy.mk.inj h
  obtain rfl : kind = kind₀ := policyTypeName_injective hkind
  rfl

theorem Rules.of_injective : Function.Injective Rules.of := by
  rintro ⟨window, select, policies⟩ ⟨window₀, select₀, policies₀⟩ h
  obtain ⟨rfl, hselect, hpolicies⟩ := Rules.mk.inj h
  obtain rfl : select = select₀ := selectPolicyName_injective hselect
  obtain rfl : policies = policies₀ := Policy.of_injective.list_map hpolicies
  rfl

/-- Whether there are rules for a direction is shown, too. -/
theorem Behavior.of_injective : Function.Injective Behavior.of := by
  rintro ⟨up, down⟩ ⟨up₀, down₀⟩ h
  obtain ⟨hup, hdown⟩ := Behavior.mk.inj h
  obtain rfl : up = up₀ := Option.map_injective Rules.of_injective hup
  obtain rfl : down = down₀ := Option.map_injective Rules.of_injective hdown
  rfl

/-! ## Metrics -/

/-- Of a metric its name and its value are shown; the selector is the same for all of them. -/
theorem map_metric_of_eq_iff {name : String} {ms ms₀ : List Autoscaling.Metric} :
    ms.map (Metric.of name) = ms₀.map (Metric.of name) ↔
      (ms.map fun m => (m.name, m.target)) = ms₀.map fun m => (m.name, m.target) := by
  let shown (e : String × Int64) : Metric := ⟨e.1, Carrier.autoscaler.encode name, e.2⟩
  have hinj : Function.Injective shown := by
    rintro ⟨metric, value⟩ ⟨metric₀, value₀⟩ h
    obtain ⟨rfl, -, rfl⟩ := Metric.mk.inj h
    rfl
  have hof (ms : List Autoscaling.Metric) :
      ms.map (Metric.of name) = (ms.map fun m => (m.name, m.target)).map shown := by
    rw [List.map_map]
    rfl
  rw [hof, hof, hinj.list_map.eq_iff]

/-! ## Specifications and statuses -/

theorem Spec.of_eq_of_iff {s t : Autoscaling.Spec} :
    Spec.of s = Spec.of t ↔
      s.name = t.name ∧ s.minReplicas = t.minReplicas ∧ s.maxReplicas = t.maxReplicas ∧
        ((s.metrics.map fun m => (m.name, m.target)) = t.metrics.map fun m => (m.name, m.target)) ∧
        s.behavior = t.behavior := by
  constructor
  · intro h
    obtain ⟨htarget, hmin, hmax, hmetrics, hbehavior⟩ := Spec.mk.inj h
    have hname : s.name = t.name := (Target.mk.inj htarget).2.2
    rw [hname] at hmetrics
    exact ⟨hname, hmin, hmax, map_metric_of_eq_iff.mp hmetrics,
      Option.map_injective Behavior.of_injective hbehavior⟩
  · rintro ⟨hname, hmin, hmax, hmetrics, hbehavior⟩
    simp only [Spec.of, hname, hmin, hmax, hbehavior, map_metric_of_eq_iff.mpr hmetrics]

/-- A status can be told from how it is shown, up to a number of replicas that is absent. -/
theorem Status.of_eq_of_iff {s t : Autoscaling.Status} :
    Status.of s = Status.of t ↔ s.withCurrent = t.withCurrent := by
  constructor
  · intro h
    have hback := congrArg toStatus h
    rw [toStatus_shown, toStatus_shown] at hback
    exact Except.ok.inj hback
  · intro h
    rw [← of_withCurrent s, h, of_withCurrent]

end View

namespace Autoscaler

/-! ## Views -/

theorem shown_eq_shown_iff {a b : Autoscaler} : a.shown = b.shown ↔ a.Alike b := by
  constructor
  · intro h
    obtain ⟨-, hns, hversion, hspec, hstatus⟩ := View.mk.inj h
    obtain ⟨hname, hmin, hmax, hmetrics, hbehavior⟩ := View.Spec.of_eq_of_iff.mp hspec
    obtain ⟨hcurrent, hdesired, hconditions, htime⟩ :=
      Status.mk.inj (View.Status.of_eq_of_iff.mp hstatus)
    exact ⟨hns, hname, hversion, hmin, hmax, hmetrics, hbehavior, Option.some.inj hcurrent,
      hdesired, hconditions, htime⟩
  · intro alike
    have hspec : View.Spec.of a.spec = View.Spec.of b.spec :=
      View.Spec.of_eq_of_iff.mpr ⟨alike.name, alike.minReplicas, alike.maxReplicas, alike.metrics,
        alike.behavior⟩
    have hstatus : View.Status.of a.status = View.Status.of b.status := by
      rw [View.Status.of_eq_of_iff, Status.withCurrent, Status.withCurrent, alike.currentScale,
        alike.desiredScale, alike.conditions, alike.lastScaleTime]
    rw [shown, shown, alike.name, alike.ns, alike.version, hspec, hstatus]

/-- Autoscalers that are alike are refused alike, too: a refusal tells nothing of settings. -/
theorem Alike.view_eq {a b : Autoscaler} (alike : a.Alike b) : a.view = b.view := by
  have hmetrics : a.spec.metrics.isEmpty = b.spec.metrics.isEmpty := by
    have h := congrArg List.isEmpty alike.metrics
    rwa [List.isEmpty_map, List.isEmpty_map] at h
  have hkey : a.key = b.key := by
    rw [key, key, Spec.key, Spec.key, alike.ns, alike.name]
  have hshown : a.shown = b.shown := shown_eq_shown_iff.mpr alike
  simp only [shown] at hshown
  rw [view, view, hmetrics, hkey, hshown, alike.name, alike.ns]

/-- **Views hide the settings of backends and nothing else.**  Whatever the settings for its target
and its metrics are, they have no influence on the view of an autoscaler, or on the refusal of one
that cannot be shown.  The views of two autoscalers that can be shown are equal exactly if the two
agree on their keys, versions and numbers of replicas, on the names and values of their metrics in
order, on all of their behavior, and on their statuses, where no current number of replicas counts
as zero. -/
theorem views_tell_apart :
    (∀ a b : Autoscaler, a.Alike b → a.view = b.view) ∧
    ∀ a b : Autoscaler, a.spec.Valid → b.spec.Valid →
      ∃ v w, a.view = .ok v ∧ b.view = .ok w ∧ (v = w ↔ a.Alike b) :=
  ⟨fun _ _ alike => alike.view_eq, fun a b ha hb =>
    ⟨a.shown, b.shown, view_eq_ok_iff.mpr ⟨ha, rfl⟩, view_eq_ok_iff.mpr ⟨hb, rfl⟩,
      shown_eq_shown_iff⟩⟩

/-- An autoscaler with settings for its target and its metric, and with a behavior. -/
def outfitted (behavior : Behavior) (settings : Option Settings) : Autoscaler :=
  ⟨⟨"ns", "a", none, 5, [⟨"load", 1, settings⟩], settings, some behavior⟩, .initial, 1⟩

/-- Settings make no difference to a view, and rules that say nothing do. -/
theorem views_tell_apart_outfitted :
    let plain := outfitted ⟨none, none⟩ none
    let settled := outfitted ⟨none, none⟩ (some ⟨"sim", .null⟩)
    let ruled := outfitted ⟨some ⟨none, .max, []⟩, none⟩ none
    plain.spec.Valid ∧ ruled.spec.Valid ∧ plain.Alike settled ∧ plain.view = settled.view ∧
      plain.view ≠ ruled.view := by
  intro plain settled ruled
  have hplain : plain.spec.Valid := ⟨by decide, by decide, List.cons_ne_nil _ _⟩
  have hruled : ruled.spec.Valid := ⟨by decide, by decide, List.cons_ne_nil _ _⟩
  have alike : plain.Alike settled := ⟨rfl, rfl, rfl, rfl, rfl, rfl, rfl, rfl, rfl, rfl, rfl⟩
  refine ⟨hplain, hruled, alike, views_tell_apart.1 _ _ alike, fun h => ?_⟩
  obtain ⟨v, w, hv, hw, htold⟩ := views_tell_apart.2 plain ruled hplain hruled
  have hvw : v = w := Except.ok.inj (hv.symm.trans (h.trans hw))
  exact absurd (htold.mp hvw).behavior (by decide)

end Autoscaler

end Autoscaling
