import Autoscaling.Ordered.Lemmas
import Autoscaling.Reconcile.Plan
import Mathlib.Tactic.Common

/-!
# What is in a plan

Of the desired specifications of a key the last one counts, which is `Plan.last?`.  The steps of a
plan are known by their members (`Plan.mem_deletions_iff`, `Plan.mem_updates_iff` and
`Plan.mem_additions_iff`), each of the three parts is listed by ascending key, and no two steps are
about the same key (`Plan.distinct_between`).
-/

namespace Autoscaling

namespace Plan

/-- The last of the specifications of a key. -/
def last? (specs : List Spec) (k : Key) : Option Spec :=
  specs.reverse.find? fun spec => decide (spec.key = k)

theorem key_of_last? {specs : List Spec} {k : Key} {spec : Spec} (h : last? specs k = some spec) :
    spec.key = k := by
  simpa using List.find?_some h

theorem exists_last?_iff {specs : List Spec} {k : Key} :
    (∃ spec, last? specs k = some spec) ↔ ∃ spec ∈ specs, spec.key = k := by
  rw [← Option.isSome_iff_exists, last?, List.find?_isSome]
  simp

theorem find?_byKey (specs : List Spec) (k : Key) : (byKey specs).find? k = last? specs k := by
  rw [byKey, OrderedMap.find?_ofList, last?, ← List.map_reverse, List.find?_map, Option.map_map]
  have hkey : ((fun e : Key × Spec => decide (k = e.1)) ∘ fun s => (s.key, s)) =
      fun spec => decide (spec.key = k) := by
    funext spec
    simp [eq_comm]
  rw [hkey]
  exact Option.map_id'

/-- Every specification is filed under its own key. -/
def Keyed (specs : OrderedMap Key Spec) : Prop :=
  ∀ k spec, specs.find? k = some spec → spec.key = k

theorem keyed_byKey (specs : List Spec) : Keyed (byKey specs) := by
  intro k spec h
  rw [find?_byKey] at h
  exact key_of_last? h

/-! ## Members -/

variable {stored desired : OrderedMap Key Spec}

theorem mem_deletions_iff {step : Step} :
    step ∈ deletions stored desired ↔
      ∃ k, step = .delete k ∧ (∃ current, stored.find? k = some current) ∧
        desired.find? k = none := by
  simp only [deletions, List.mem_map, List.mem_filter, OrderedMap.mem_keys_iff,
    OrderedMap.contains, Option.isSome_iff_exists, Bool.not_eq_true', Option.isSome_eq_false_iff,
    Option.isNone_iff_eq_none]
  constructor
  · rintro ⟨k, hk, rfl⟩
    exact ⟨k, rfl, hk⟩
  · rintro ⟨k, rfl, hk⟩
    exact ⟨k, hk, rfl⟩

theorem mem_updates_iff (keyed : Keyed desired) {step : Step} :
    step ∈ updates stored desired ↔
      ∃ spec, step = .update spec ∧ desired.find? spec.key = some spec ∧
        ∃ current, stored.find? spec.key = some current ∧ (current == spec) = false := by
  simp only [updates, List.mem_map, List.mem_filter]
  constructor
  · rintro ⟨⟨k, spec⟩, ⟨hmem, hdiffers⟩, rfl⟩
    have hfound := OrderedMap.mem_entries_iff.mp hmem
    obtain rfl := keyed k spec hfound
    refine ⟨spec, rfl, hfound, ?_⟩
    cases hstored : stored.find? spec.key with
    | none => simp [hstored] at hdiffers
    | some current => exact ⟨current, rfl, by simpa [hstored, bne] using hdiffers⟩
  · rintro ⟨spec, rfl, hfound, current, hstored, hdiffers⟩
    refine ⟨(spec.key, spec), ⟨OrderedMap.mem_entries_iff.mpr hfound, ?_⟩, rfl⟩
    simp [hstored, bne, hdiffers]

theorem mem_additions_iff (keyed : Keyed desired) {step : Step} :
    step ∈ additions stored desired ↔
      ∃ spec, step = .add spec ∧ desired.find? spec.key = some spec ∧
        stored.find? spec.key = none := by
  simp only [additions, List.mem_map, List.mem_filter, OrderedMap.contains, Bool.not_eq_true',
    Option.isSome_eq_false_iff, Option.isNone_iff_eq_none]
  constructor
  · rintro ⟨⟨k, spec⟩, ⟨hmem, hstored⟩, rfl⟩
    have hfound := OrderedMap.mem_entries_iff.mp hmem
    obtain rfl := keyed k spec hfound
    exact ⟨spec, rfl, hfound, hstored⟩
  · rintro ⟨spec, rfl, hfound, hstored⟩
    exact ⟨(spec.key, spec), ⟨OrderedMap.mem_entries_iff.mpr hfound, hstored⟩, rfl⟩

/-! ## Order -/

/-- The steps are listed by strictly ascending key. -/
def InOrder (steps : List Step) : Prop := steps.Pairwise fun a b => compare a.key b.key = .lt

/-- No two steps are about the same key. -/
def Distinct (steps : List Step) : Prop := steps.Pairwise fun a b => a.key ≠ b.key

theorem InOrder.distinct {steps : List Step} (h : InOrder steps) : Distinct steps := by
  refine List.Pairwise.imp ?_ h
  intro a b hlt heq
  have hself : compare b.key b.key = .eq := Std.ReflCmp.compare_self
  rw [heq, hself] at hlt
  exact nomatch hlt

theorem inOrder_deletions (stored desired : OrderedMap Key Spec) :
    InOrder (deletions stored desired) := by
  rw [InOrder, deletions, List.pairwise_map]
  exact stored.keys_ascending.filter _

/-- Steps for entries of a map are in order if each is about the key of its entry. -/
theorem inOrder_map (keyed : Keyed desired) {step : Spec → Step}
    (hstep : ∀ spec, (step spec).key = spec.key) (keeps : Key × Spec → Bool) :
    InOrder ((desired.entries.filter keeps).map fun e => step e.2) := by
  rw [InOrder, List.pairwise_map]
  refine List.Pairwise.imp_of_mem ?_ (desired.ascending.filter keeps)
  intro a b ha hb hlt
  have hkey (e : Key × Spec) (he : e ∈ desired.entries.filter keeps) : e.2.key = e.1 :=
    keyed e.1 e.2 (OrderedMap.mem_entries_iff.mp (List.mem_filter.mp he).1)
  rw [hstep, hstep, hkey a ha, hkey b hb]
  exact hlt

theorem inOrder_updates (keyed : Keyed desired) : InOrder (updates stored desired) :=
  inOrder_map keyed (fun _ => rfl) _

theorem inOrder_additions (keyed : Keyed desired) : InOrder (additions stored desired) :=
  inOrder_map keyed (fun _ => rfl) _

theorem distinct_between (keyed : Keyed desired) : Distinct (between stored desired) := by
  rw [Distinct, between, List.pairwise_append, List.pairwise_append]
  -- each part is in order, so it remains to compare steps of different parts
  refine ⟨⟨(inOrder_deletions stored desired).distinct, (inOrder_updates keyed).distinct, ?_⟩,
    (inOrder_additions keyed).distinct, ?_⟩
  · intro a ha b hb heq
    obtain ⟨k, rfl, -, hnone⟩ := mem_deletions_iff.mp ha
    obtain ⟨spec, rfl, hfound, -⟩ := (mem_updates_iff keyed).mp hb
    have hkey : k = spec.key := heq
    rw [hkey, hfound] at hnone
    exact nomatch hnone
  · intro a ha b hb heq
    obtain ⟨spec, rfl, hfound, hstored⟩ := (mem_additions_iff keyed).mp hb
    rcases List.mem_append.mp ha with ha | ha
    · obtain ⟨k, rfl, -, hnone⟩ := mem_deletions_iff.mp ha
      have hkey : k = spec.key := heq
      rw [hkey, hfound] at hnone
      exact nomatch hnone
    · obtain ⟨spec₀, rfl, -, current, hcurrent, -⟩ := (mem_updates_iff keyed).mp ha
      have hkey : spec₀.key = spec.key := heq
      rw [hkey, hstored] at hcurrent
      exact nomatch hcurrent

end Plan

end Autoscaling
