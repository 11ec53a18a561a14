import Autoscaling.Control.Site
import Autoscaling.Proofs.Store.Run
import Autoscaling.Proofs.View.Status
import Mathlib.Tactic.Common

/-!
# Refusals

When the store refuses a mutation, and in which words.  A mutation may have several flaws, and the
first one that is looked for counts: what is stored under the key comes before what is wrong with a
specification, the scope of a sink before the conditions of a status, and those before what is
stored.  `Store.refused_exactly` gives for each of the five requests every cause and no other, and
says that nothing comes of a refused request.

That a status can always be merged rests on `Store.Coherent`: a specification that is stored can be
shown to the engine, whatever status stands beside it.  For the same reason a specification that
replaces a stored one can lack nothing but metrics, as its key is that of a stored one.
-/

namespace Autoscaling

namespace Spec

/-- The first of the flaws that keep a specification from being shown to the engine. -/
def flaw (s : Spec) : String :=
  if s.name = "" then "name is required"
  else if s.ns = "" then "namespace is required for " ++ s.name
  else "no metrics for " ++ s.key.text

theorem refusal?_eq (s : Spec) :
    s.refusal? =
      if s.name = "" ∨ s.ns = "" ∨ s.metrics = [] then some (.invalid s.flaw) else none := by
  unfold refusal? Autoscaler.view flaw
  by_cases hname : s.name = ""
  · simp [Autoscaler.declared, hname]
  by_cases hns : s.ns = ""
  · simp [Autoscaler.declared, hname, hns]
  by_cases hmetrics : s.metrics = []
  · simp [Autoscaler.declared, Autoscaler.key, hname, hns, hmetrics]
  · simp [Autoscaler.declared, hname, hns, hmetrics]

theorem refusal?_eq_some_iff {s : Spec} {e : StateError} :
    s.refusal? = some e ↔ (s.name = "" ∨ s.ns = "" ∨ s.metrics = []) ∧ e = .invalid s.flaw := by
  rw [refusal?_eq]
  split_ifs with hflaw
  · exact ⟨fun h => ⟨hflaw, (Option.some.inj h).symm⟩, fun h => congrArg some h.2.symm⟩
  · exact ⟨fun h => (nomatch h), fun h => absurd h.1 hflaw⟩

/-- A specification with a name and a namespace can lack metrics only. -/
theorem refusal?_eq_some_iff_of_ne {s : Spec} {e : StateError} (hname : s.name ≠ "")
    (hns : s.ns ≠ "") :
    s.refusal? = some e ↔ s.metrics = [] ∧ e = .invalid ("no metrics for " ++ s.key.text) := by
  simp [refusal?_eq_some_iff, flaw, hname, hns]

end Spec

namespace Store

/-! ## Refusals of the requests -/

section Coherent

variable {s : Store} (coherent : s.Coherent) {e : StateError}

include coherent

theorem add_eq_error_iff {a : Autoscaler} :
    s.add a = .error e ↔
      (s.Live a.key ∧ e = .alreadyExists a.key.text) ∨
        (¬ s.Live a.key ∧ (a.spec.name = "" ∨ a.spec.ns = "" ∨ a.spec.metrics = []) ∧
          e = .invalid a.spec.flaw) := by
  show s.mutate (.add a) = _ ↔ _
  rw [coherent.mutate_eq_error_iff, live_iff]
  show Mutation.outcome (s.stored? a.key) _ = _ ↔ _
  cases s.stored? a.key with
  | some b =>
      simp only [Mutation.outcome, Except.error.injEq, Option.some.injEq, exists_eq', true_and,
        not_true, false_and, or_false]
      exact eq_comm
  | none => simp [Mutation.outcome, Spec.checked_eq_error_iff, Spec.refusal?_eq_some_iff]

theorem delete_eq_error_iff {k : Key} :
    s.delete k = .error e ↔ ¬ s.Live k ∧ e = notFound k := by
  show s.mutate (.delete k) = _ ↔ _
  rw [coherent.mutate_eq_error_iff, live_iff]
  show Mutation.outcome (s.stored? k) _ = _ ↔ _
  cases s.stored? k <;> simp [Mutation.outcome, eq_comm]

/-- A mutation that replaces a specification is refused when there is none, or when the new one has
no metrics. -/
theorem replace_eq_error_iff {m : Mutation} {spec : Spec} (hkey : m.key = spec.key)
    (hnone : m.outcome none = .error (notFound spec.key))
    (hsome : ∀ b, ∃ status, m.outcome (some b) = spec.checked status) :
    s.mutate m = .error e ↔
      (¬ s.Live spec.key ∧ e = notFound spec.key) ∨
        (s.Live spec.key ∧ spec.metrics = [] ∧
          e = .invalid ("no metrics for " ++ spec.key.text)) := by
  rw [coherent.mutate_eq_error_iff, hkey]
  by_cases live : s.Live spec.key
  · obtain ⟨hname, hns⟩ := key_of_live coherent live
    obtain ⟨b, stored⟩ := live_iff.mp live
    obtain ⟨status, hchecked⟩ := hsome b
    simp only [live, not_true, false_and, false_or, true_and]
    rw [stored, hchecked, Spec.checked_eq_error_iff, Spec.refusal?_eq_some_iff_of_ne hname hns]
  · simp [not_live_iff.mp live, hnone, live, eq_comm]

/-- Merging a status can fail for want of an autoscaler only. -/
theorem mergeStatus_eq_error_iff {k : Key} {status : Status} :
    s.mergeStatus k status = .error e ↔ ¬ s.Live k ∧ e = notFound k := by
  rw [not_live_iff, stored?, mergeStatus]
  cases found : s.find? k with
  | none => simp [eq_comm]
  | some entry =>
      have hvalid := Spec.refusal?_eq_none_iff.mpr (coherent.valid found)
      simp [put_eq_error_iff, hvalid]

theorem updateStatus_eq_error_iff {sink : String} {v : View} :
    s.updateStatus sink v = .error e ↔
      (v.ns ≠ sink ∧ e = foreign sink v) ∨
        (v.ns = sink ∧ ∃ before c after, v.status.conditions = before ++ c :: after ∧
          (∀ b ∈ before, b.Known) ∧ ¬ c.Known ∧ e = c.unexpected) ∨
        (v.ns = sink ∧ (∀ c ∈ v.status.conditions, c.Known) ∧ ¬ s.Live ⟨sink, v.name⟩ ∧
          e = notFound ⟨sink, v.name⟩) := by
  rw [updateStatus_eq, ← View.Status.toStatus_eq_error_iff, ← View.Status.exists_toStatus_iff]
  by_cases hns : v.ns = sink
  · cases v.status.toStatus with
    | error e₀ => simp [hns, eq_comm]
    | ok status => simp [hns, mergeStatus_eq_error_iff coherent]
  · simp [hns, eq_comm]

end Coherent

/-- **Requests are refused for what the store says, and nothing comes of them.**  In every store
that a run reaches, an addition is refused when its key is live, and else when its specification
lacks a name, a namespace or metrics.  A replacement, of a specification alone or with its status,
is refused when its key is not live, and else when it lacks metrics; a deletion, when its key is not
live.  A status is refused by a sink for another namespace, else when a condition is of an unknown
type, and else when its key is not live; merging it never fails for a live key.

A refused request leaves the store as it was, with its entries, its version, its watches and its
listeners.  A refused status leaves what is outside of the store as it was, too: nobody is told. -/
theorem refused_exactly (tuning : Tuning) (handled : Bool) (history : List Action) :
    let s := (create tuning handled).run history
    (∀ a e, s.add a = .error e ↔
      (s.Live a.key ∧ e = .alreadyExists a.key.text) ∨
        (¬ s.Live a.key ∧ (a.spec.name = "" ∨ a.spec.ns = "" ∨ a.spec.metrics = []) ∧
          e = .invalid a.spec.flaw)) ∧
    (∀ a e, s.update a = .error e ↔
      (¬ s.Live a.key ∧ e = notFound a.key) ∨
        (s.Live a.key ∧ a.spec.metrics = [] ∧ e = .invalid ("no metrics for " ++ a.key.text))) ∧
    (∀ spec e, s.updateSpec spec = .error e ↔
      (¬ s.Live spec.key ∧ e = notFound spec.key) ∨
        (s.Live spec.key ∧ spec.metrics = [] ∧
          e = .invalid ("no metrics for " ++ spec.key.text))) ∧
    (∀ k e, s.delete k = .error e ↔ ¬ s.Live k ∧ e = notFound k) ∧
    (∀ sink v e, s.updateStatus sink v = .error e ↔
      (v.ns ≠ sink ∧ e = foreign sink v) ∨
        (v.ns = sink ∧ ∃ before c after, v.status.conditions = before ++ c :: after ∧
          (∀ b ∈ before, b.Known) ∧ ¬ c.Known ∧ e = c.unexpected) ∨
        (v.ns = sink ∧ (∀ c ∈ v.status.conditions, c.Known) ∧ ¬ s.Live ⟨sink, v.name⟩ ∧
          e = notFound ⟨sink, v.name⟩)) ∧
    (∀ k status, s.Live k → ∃ c, s.mergeStatus k status = .ok c) ∧
    (∀ m e, s.mutate m = .error e →
      s.act (.mutate m) = s ∧ s.settle (s.mutate m) = (.error e, s)) ∧
    ∀ (β : Type) (storage : StorageClient β) (outside : β) (told : List (String × Autoscaler))
      (sink : String) (v : View) (e : StateError),
      s.updateStatus sink v = .error e →
        Site.updateStatus storage sink v ⟨s, outside, told⟩ = (.error e, ⟨s, outside, told⟩) := by
  intro s
  have coherent : s.Coherent := coherent_run tuning handled history
  refine ⟨fun a e => add_eq_error_iff coherent, ?_, ?_, fun k e => delete_eq_error_iff coherent,
    fun sink v e => updateStatus_eq_error_iff coherent, ?_, ?_, ?_⟩
  · intro a e
    exact replace_eq_error_iff coherent (m := .update a) rfl rfl fun b => ⟨a.status, rfl⟩
  · intro spec e
    exact replace_eq_error_iff coherent (m := .updateSpec spec) rfl rfl fun b => ⟨b.status, rfl⟩
  · intro k status live
    cases hmerge : s.mergeStatus k status with
    | ok c => exact ⟨c, rfl⟩
    | error e => exact absurd live ((mergeStatus_eq_error_iff coherent).mp hmerge).1
  · intro m e h
    simp only [act, h, settle, and_self]
  · intro β storage outside told sink v e h
    simp only [Site.updateStatus, h]

end Store

end Autoscaling
