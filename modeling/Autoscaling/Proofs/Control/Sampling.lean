import Autoscaling.Proofs.Control.Pass
import Mathlib.Tactic.Common

/-!
# The settings that a metric is sampled with

The engine asks for a metric by its name and by the selector that its view carries.  The selector
leads back to the autoscaler, but it is the same for all of its metrics, so among them the name
alone decides.  A metric is sampled with the settings that are declared for the first metric of its
name (`Site.sampled_with_first`), and if two metrics have one name, the settings of the second are
never used (`Site.second_of_name_sampled_with_first`).
-/

namespace Autoscaling

namespace Spec

/-- The first metric of a name is declared at a place. -/
structure First (spec : Spec) (name : String) (j : Nat) (first : Metric) : Prop where
  declared : spec.metrics[j]? = some first
  named : first.name = name
  noneBefore : ∀ (j₀ : Nat) (m : Metric), j₀ < j → spec.metrics[j₀]? = some m → m.name ≠ name

/-- The settings for a metric are those of the first metric of its name. -/
theorem exists_first {spec : Spec} {i : Nat} {m : Metric} (declared : spec.metrics[i]? = some m) :
    ∃ j first, j ≤ i ∧ spec.First m.name j first ∧
      spec.metricSettings? m.name = first.config := by
  obtain ⟨hi, rfl⟩ := List.getElem?_eq_some_iff.mp declared
  let named (m₀ : Metric) : Bool := m₀.name == spec.metrics[i].name
  have hsome : (spec.metrics.find? named).isSome = true :=
    List.find?_isSome.mpr ⟨_, List.getElem_mem hi, beq_self_eq_true _⟩
  obtain ⟨first, hfirst⟩ := Option.isSome_iff_exists.mp hsome
  obtain ⟨hname, j, hj, rfl, hbefore⟩ := List.find?_eq_some_iff_getElem.mp hfirst
  have hnot (j₀ : Nat) (hlt : j₀ < j) : spec.metrics[j₀].name ≠ spec.metrics[i].name := by
    simpa [named] using hbefore j₀ hlt
  refine ⟨j, _, Nat.le_of_not_lt fun hlt => hnot i hlt rfl,
    ⟨List.getElem?_eq_getElem hj, beq_iff_eq.mp hname, ?_⟩, ?_⟩
  · intro j₀ m₀ hlt hm₀
    obtain ⟨-, rfl⟩ := List.getElem?_eq_some_iff.mp hm₀
    exact hnot j₀ hlt
  · simp only [metricSettings?, named] at hfirst ⊢
    rw [hfirst]

end Spec

namespace Site

variable {β : Type}

/-- Asked for a metric of a stored autoscaler, the metrics client is called with the name of the
metric, the key of the autoscaler and the settings of the first metric of that name. -/
theorem externalMetric_of_stored? (metrics : MetricsClient β) {a : Autoscaler} {s : Site β}
    (stored : s.store.stored? a.key = some a) (m : Metric) :
    externalMetric metrics m.name a.shown.ns (View.Metric.of a.spec.name m).selector s =
      .ok (call (metrics.getMetric m.name a.key (a.spec.metricSettings? m.name)) s) := by
  rw [externalMetric_shown, metricOf, lookup_of_stored? stored]

/-- Which settings a client is called with makes a difference to some client. -/
theorem call_getMetric_inj (metric : String) (k : Key) {settings settings₀ : Option Settings}
    (s : Site β) (h : ∀ metrics : MetricsClient β,
      call (metrics.getMetric metric k settings) s = call (metrics.getMetric metric k settings₀) s) :
    settings₀ = settings := by
  classical
  -- a client that tells whether it was called with these settings
  let telling : MetricsClient β :=
    ⟨fun _ _ settings₁ x => (.ok [if settings₁ = settings then 1 else 0], x)⟩
  by_contra hne
  have hanswer := congrArg Prod.fst (h telling)
  simp [call, telling, hne] at hanswer

/-- **A metric is sampled with the settings of the first one of its name.**  Let a run of a store
reach a site.  The view of a live key shows the metrics of the autoscaler in their order.  Whoever
asks for one of them as the view shows it, in the namespace of the view, makes one call to the
metrics client, with the name of the metric, the key of the autoscaler, and the settings that are
declared for the first metric of that name.  These are its own settings exactly if the first metric
of its name declares the same. -/
theorem sampled_with_first (tuning : Tuning) (handled : Bool) (history : List Action) (outside : β)
    (told : List (String × Autoscaler)) :
    let site : Site β := ⟨(Store.create tuning handled).run history, outside, told⟩
    ∀ k a, site.store.get k = .ok a →
      ∃ v, site.store.getView k = .ok v ∧ v.spec.metrics.length = a.spec.metrics.length ∧
        ∀ (i : Nat) (m : Metric) (shown : View.Metric), a.spec.metrics[i]? = some m →
          v.spec.metrics[i]? = some shown →
          shown.name = m.name ∧
          ∃ j first, j ≤ i ∧ a.spec.First m.name j first ∧
            (∀ metrics : MetricsClient β,
              externalMetric metrics shown.name v.ns shown.selector site =
                .ok (call (metrics.getMetric m.name ⟨a.spec.ns, a.spec.name⟩ first.config) site)) ∧
            ((∀ metrics : MetricsClient β,
              externalMetric metrics shown.name v.ns shown.selector site =
                .ok (call (metrics.getMetric m.name ⟨a.spec.ns, a.spec.name⟩ m.config) site)) ↔
              first.config = m.config) := by
  intro site k a found
  have coherent : site.store.Coherent := Store.coherent_run tuning handled history
  have stored := Store.stored?_eq_some_iff.mpr found
  obtain rfl : a.key = k := Store.key_of_stored? coherent stored
  refine ⟨a.shown, Store.getView_of_stored? coherent stored, List.length_map .., ?_⟩
  intro i m shown declared hshown
  have hof : View.Metric.of a.spec.name m = shown := by
    have h : (a.spec.metrics.map (View.Metric.of a.spec.name))[i]? = some shown := hshown
    rw [List.getElem?_map, declared] at h
    exact Option.some.inj h
  subst hof
  obtain ⟨j, first, hle, hfirst, hsettings⟩ := Spec.exists_first declared
  have hcall (metrics : MetricsClient β) :
      externalMetric metrics m.name a.shown.ns (View.Metric.of a.spec.name m).selector site =
        .ok (call (metrics.getMetric m.name a.key first.config) site) := by
    rw [externalMetric_of_stored? metrics stored, hsettings]
  refine ⟨rfl, j, first, hle, hfirst, hcall, ?_⟩
  constructor
  · intro own
    refine call_getMetric_inj m.name a.key site fun metrics => ?_
    exact Except.ok.inj ((own metrics).symm.trans (hcall metrics))
  · intro hsame metrics
    rw [← hsame]
    exact hcall metrics

/-- A specification with two metrics of one name, with different settings. -/
def twoOfName : Spec :=
  ⟨"ns", "a", none, 5, [⟨"load", 1, some ⟨"first", .null⟩⟩, ⟨"load", 1, some ⟨"second", .null⟩⟩],
    none, none⟩

/-- A site that keeps it. -/
def freshTwoOfName : Site (List (Option Settings)) :=
  ⟨(Store.create ⟨1, .disconnect⟩ false).run [.mutate (.add (.declared twoOfName))], [], []⟩

/-- At a site with two metrics of one name, where the second one is asked for. -/
theorem sampled_with_first_two :
    let a : Autoscaler := ⟨twoOfName, Status.initial, 1⟩
    freshTwoOfName.store.get ⟨"ns", "a"⟩ = .ok a ∧
      ∃ v, freshTwoOfName.store.getView ⟨"ns", "a"⟩ = .ok v ∧
        ∃ shown, v.spec.metrics[1]? = some shown ∧ shown.name = "load" ∧
          ∃ j first, j ≤ 1 ∧ twoOfName.First "load" j first ∧
            ∀ metrics, externalMetric metrics shown.name v.ns shown.selector freshTwoOfName =
              .ok (call (metrics.getMetric "load" ⟨"ns", "a"⟩ first.config) freshTwoOfName) := by
  intro a
  have found : freshTwoOfName.store.get ⟨"ns", "a"⟩ = .ok ⟨twoOfName, Status.initial, 1⟩ := rfl
  obtain ⟨v, hview, hlength, sampled⟩ :=
    sampled_with_first ⟨1, .disconnect⟩ false [.mutate (.add (.declared twoOfName))]
      ([] : List (Option Settings)) [] ⟨"ns", "a"⟩ _ found
  have hlt : 1 < v.spec.metrics.length := hlength ▸ Nat.one_lt_two
  have hshown := List.getElem?_eq_getElem hlt
  obtain ⟨hname, j, first, hle, hfirst, hcall, -⟩ := sampled 1 _ _ rfl hshown
  exact ⟨found, v, hview, _, hshown, hname, j, first, hle, hfirst, hcall⟩

/-- A metrics client that notes the settings that it is called with. -/
def notingSettings : MetricsClient (List (Option Settings)) :=
  ⟨fun _ _ settings noted => (.ok [], noted ++ [settings])⟩

/-- Of two metrics with one name the second is sampled with the settings of the first. -/
theorem second_of_name_sampled_with_first :
    ∃ a v m shown answer after, freshTwoOfName.store.get ⟨"ns", "a"⟩ = .ok a ∧
      freshTwoOfName.store.getView ⟨"ns", "a"⟩ = .ok v ∧
      a.spec.metrics[1]? = some m ∧ m.config = some ⟨"second", .null⟩ ∧
      v.spec.metrics[1]? = some shown ∧
      externalMetric notingSettings shown.name v.ns shown.selector freshTwoOfName =
        .ok (answer, after) ∧
      after.outside = [some ⟨"first", .null⟩] ∧ after.outside ≠ [m.config] := by
  have stored : freshTwoOfName.store.stored? (Autoscaler.mk twoOfName Status.initial 1).key =
      some ⟨twoOfName, Status.initial, 1⟩ := rfl
  have hcall := externalMetric_of_stored? notingSettings stored ⟨"load", 1, some ⟨"second", .null⟩⟩
  refine ⟨_, Autoscaler.shown ⟨twoOfName, Status.initial, 1⟩, _, _, _, _,
    Store.stored?_eq_some_iff.mp stored, rfl, rfl, rfl, rfl, hcall, rfl, ?_⟩
  intro h
  have hid : "first" = "second" :=
    congrArg Settings.typeId (Option.some.inj (List.singleton_inj.mp h))
  exact absurd hid (by decide)

end Site

end Autoscaling
