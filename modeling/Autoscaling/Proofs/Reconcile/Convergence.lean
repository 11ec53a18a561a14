import Autoscaling.Proofs.Reconcile.Pass
import Autoscaling.Proofs.Store.Records
import Mathlib.Tactic.Common

/-!
# Reconciling converges

After `Store.reconcile` a store holds what is desired, as far as it can be shown to the engine.  Of
the desired specifications of a key the last one counts.  `Store.reconcile_converges` says for every
key what is stored under it, which failures are reported in which order, and by how much the version
grows.

The plan of a store is expressed by what is stored and desired under single keys: keys that are not
desired are deleted, specifications that a key `Differs` in replace the stored ones, and
specifications that the store `Lacks` are added.
-/

namespace Autoscaling

namespace Store

open Plan (last? InOrder Distinct)

/-- Something else is desired of a stored key than what is stored. -/
def Differs (s : Store) (desired : List Spec) (spec : Spec) : Prop :=
  last? desired spec.key = some spec ∧ ∃ a, s.get spec.key = .ok a ∧ (a.spec == spec) = false

/-- What is desired of a key that nothing is stored under. -/
def Lacks (s : Store) (desired : List Spec) (spec : Spec) : Prop :=
  last? desired spec.key = some spec ∧ ¬ s.Live spec.key

/-! ## The plan of a store -/

theorem find?_byKey_autoscalers {s : Store} (coherent : s.Coherent) (k : Key) :
    (Plan.byKey (s.autoscalers.map Autoscaler.spec)).find? k =
      (s.stored? k).map Autoscaler.spec := by
  have hkeyed (k : Key) (spec : Spec) (h : s.specs.find? k = some spec) : spec.key = k := by
    rw [find?_specs] at h
    obtain ⟨a, stored, rfl⟩ := Option.map_eq_some_iff.mp h
    exact key_of_stored? coherent stored
  rw [Plan.byKey, autoscalers_eq, ← values_specs, OrderedMap.ofList_values hkeyed, find?_specs]

/-- The steps that delete what is not desired. -/
def deletions (s : Store) (desired : List Spec) : List Step :=
  Plan.deletions (Plan.byKey (s.autoscalers.map Autoscaler.spec)) (Plan.byKey desired)

/-- The steps that replace what differs. -/
def updates (s : Store) (desired : List Spec) : List Step :=
  Plan.updates (Plan.byKey (s.autoscalers.map Autoscaler.spec)) (Plan.byKey desired)

/-- The steps that add what is lacking. -/
def additions (s : Store) (desired : List Spec) : List Step :=
  Plan.additions (Plan.byKey (s.autoscalers.map Autoscaler.spec)) (Plan.byKey desired)

theorem plan_eq (s : Store) (desired : List Spec) :
    plan s.autoscalers desired = s.deletions desired ++ s.updates desired ++ s.additions desired :=
  rfl

theorem distinct_plan (s : Store) (desired : List Spec) :
    Distinct (plan s.autoscalers desired) :=
  Plan.distinct_between (Plan.keyed_byKey desired)

section Coherent

variable {s : Store} (coherent : s.Coherent) {desired : List Spec}

include coherent

theorem mem_deletions_iff {step : Step} :
    step ∈ s.deletions desired ↔ ∃ k, step = .delete k ∧ s.Live k ∧ last? desired k = none := by
  rw [deletions, Plan.mem_deletions_iff]
  refine exists_congr fun k => ?_
  simp [find?_byKey_autoscalers coherent, Plan.find?_byKey, live_iff]

theorem mem_updates_iff {step : Step} :
    step ∈ s.updates desired ↔ ∃ spec, step = .update spec ∧ s.Differs desired spec := by
  rw [updates, Plan.mem_updates_iff (Plan.keyed_byKey desired)]
  refine exists_congr fun spec => ?_
  simp [find?_byKey_autoscalers coherent, Plan.find?_byKey, Differs, ← stored?_eq_some_iff]

theorem mem_additions_iff {step : Step} :
    step ∈ s.additions desired ↔ ∃ spec, step = .add spec ∧ s.Lacks desired spec := by
  rw [additions, Plan.mem_additions_iff (Plan.keyed_byKey desired)]
  refine exists_congr fun spec => ?_
  simp [find?_byKey_autoscalers coherent, Plan.find?_byKey, Lacks, not_live_iff]

end Coherent

/-! ## Outcomes of the steps -/

theorem finds_delete {s : Store} {k : Key} (live : s.Live k) : s.finds (.delete k) = .ok none := by
  obtain ⟨a, stored⟩ := live_iff.mp live
  show Mutation.outcome (s.stored? k) (.delete k) = _
  rw [stored]
  rfl

theorem finds_update {s : Store} {spec : Spec} {a : Autoscaler} (h : s.get spec.key = .ok a) :
    s.finds (.update spec) = spec.checked a.status := by
  show Mutation.outcome (s.stored? spec.key) (.updateSpec spec) = _
  rw [stored?_eq_some_iff.mpr h]
  rfl

theorem finds_add {s : Store} {spec : Spec} (h : ¬ s.Live spec.key) :
    s.finds (.add spec) = spec.checked Status.initial := by
  show Mutation.outcome (s.stored? spec.key) (.add (.declared spec)) = _
  rw [not_live_iff.mp h]
  rfl

/-! ## What is stored after a pass -/

/-- What a pass does about a key that a specification is desired for. -/
inductive Settled (old new : Option Autoscaler) (spec : Spec) : Prop where
  /-- it is stored as desired, or what is desired cannot be shown -/
  | kept {a : Autoscaler} (before : old = some a) (after : new = some a)
      (reason : (a.spec == spec) = true ∨ ¬ spec.Valid)
  | replaced {a b : Autoscaler} (before : old = some a) (after : new = some b)
      (differs : (a.spec == spec) = false) (valid : spec.Valid) (spec_eq : b.spec = spec)
      (status_eq : b.status = a.status)
  | added {b : Autoscaler} (before : old = none) (after : new = some b) (valid : spec.Valid)
      (spec_eq : b.spec = spec) (status_eq : b.status = Status.initial)
  | refused (before : old = none) (after : new = none) (invalid : ¬ spec.Valid)

section Coherent

variable {s : Store} (coherent : s.Coherent) (desired : List Spec)

include coherent

theorem mem_plan_iff {step : Step} :
    step ∈ plan s.autoscalers desired ↔
      (∃ k, step = .delete k ∧ s.Live k ∧ last? desired k = none) ∨
        (∃ spec, step = .update spec ∧ s.Differs desired spec) ∨
          ∃ spec, step = .add spec ∧ s.Lacks desired spec := by
  rw [plan_eq, List.mem_append, List.mem_append, mem_deletions_iff coherent,
    mem_updates_iff coherent, mem_additions_iff coherent, or_assoc]

/-- What is not desired is not stored any more. -/
theorem stored?_pass_of_undesired {k : Key} (h : last? desired k = none) :
    (s.pass (plan s.autoscalers desired)).stored? k = none := by
  by_cases live : s.Live k
  · have hstep := (mem_plan_iff coherent desired).mpr (.inl ⟨k, rfl, live, h⟩)
    have left := coherent.stored?_pass (s.distinct_plan desired) hstep
    rw [finds_delete live] at left
    exact Option.map_eq_none_iff.mp left
  · -- no step is about a key that is neither stored nor desired
    rw [coherent.stored?_pass_of_forall_ne, not_live_iff.mp live]
    intro step hstep hkey
    subst hkey
    rcases (mem_plan_iff coherent desired).mp hstep with
      ⟨k, rfl, hlive, -⟩ | ⟨spec, rfl, hlast, -⟩ | ⟨spec, rfl, hlast, -⟩
    · exact live hlive
    · exact nomatch hlast.symm.trans h
    · exact nomatch hlast.symm.trans h

/-- What is stored as it is desired stays as it is. -/
theorem stored?_pass_of_same {spec : Spec} {a : Autoscaler}
    (hlast : last? desired spec.key = some spec) (stored : s.get spec.key = .ok a)
    (hsame : (a.spec == spec) = true) :
    (s.pass (plan s.autoscalers desired)).stored? spec.key = some a := by
  -- a step about the key would delete, replace or add what is neither
  rw [coherent.stored?_pass_of_forall_ne, stored?_eq_some_iff.mpr stored]
  intro step hstep hkey
  rcases (mem_plan_iff coherent desired).mp hstep with
    ⟨k, rfl, -, hnone⟩ | ⟨spec₀, rfl, hlast₀, b, hb, hdiffers⟩ | ⟨spec₀, rfl, -, hlive⟩
  · have hk : k = spec.key := hkey
    rw [hk, hlast] at hnone
    exact nomatch hnone
  · have hk : spec₀.key = spec.key := hkey
    rw [hk] at hlast₀ hb
    cases hlast.symm.trans hlast₀
    cases hb.symm.trans stored
    exact nomatch hsame.symm.trans hdiffers
  · have hk : spec₀.key = spec.key := hkey
    exact hlive (hk ▸ ⟨a, stored⟩)

/-- A pass settles every key that something is desired of. -/
theorem settled_pass {spec : Spec} (hlast : last? desired spec.key = some spec) :
    Settled (s.stored? spec.key) ((s.pass (plan s.autoscalers desired)).stored? spec.key) spec := by
  by_cases live : s.Live spec.key
  · obtain ⟨a, stored⟩ := live
    have before := stored?_eq_some_iff.mpr stored
    by_cases hsame : (a.spec == spec) = true
    · exact .kept before (stored?_pass_of_same coherent desired hlast stored hsame) (.inl hsame)
    have hdiffers := Bool.eq_false_iff.mpr hsame
    have hstep := (mem_plan_iff coherent desired).mpr
      (.inr (.inl ⟨spec, rfl, hlast, a, stored, hdiffers⟩))
    have left := coherent.stored?_pass (s.distinct_plan desired) hstep
    rw [finds_update stored] at left
    by_cases valid : spec.Valid
    · rw [Spec.checked_eq_ok_iff.mpr ⟨valid, rfl⟩] at left
      obtain ⟨b, after, hcontent⟩ := Option.map_eq_some_iff.mp left
      obtain ⟨hspec, hstatus⟩ := Prod.mk.inj hcontent
      exact .replaced before after hdiffers valid hspec hstatus
    · obtain ⟨what, -, hrefused⟩ := Spec.exists_checked_eq valid
      rw [hrefused] at left
      exact .kept before (left.trans before) (.inr valid)
  · have before := not_live_iff.mp live
    have hstep := (mem_plan_iff coherent desired).mpr (.inr (.inr ⟨spec, rfl, hlast, live⟩))
    have left := coherent.stored?_pass (s.distinct_plan desired) hstep
    rw [finds_add live] at left
    by_cases valid : spec.Valid
    · rw [Spec.checked_eq_ok_iff.mpr ⟨valid, rfl⟩] at left
      obtain ⟨b, after, hcontent⟩ := Option.map_eq_some_iff.mp left
      obtain ⟨hspec, hstatus⟩ := Prod.mk.inj hcontent
      exact .added before after valid hspec hstatus
    · obtain ⟨what, -, hrefused⟩ := Spec.exists_checked_eq valid
      rw [hrefused] at left
      exact .refused before (left.trans before) valid

theorem live_pass_iff {k : Key} :
    (s.pass (plan s.autoscalers desired)).Live k ↔
      ∃ spec, last? desired k = some spec ∧ (s.Live k ∨ spec.Valid) := by
  cases hlast : last? desired k with
  | none => simp [live_iff, stored?_pass_of_undesired coherent desired hlast]
  | some spec =>
      obtain rfl := Plan.key_of_last? hlast
      rw [live_iff, live_iff]
      cases settled_pass coherent desired hlast with
      | kept before after reason => simp [before, after]
      | replaced before after differs valid spec_eq status_eq => simp [before, after]
      | added before after valid spec_eq status_eq => simp [after, valid]
      | refused before after invalid => simp [before, after, invalid]

/-- What a key that is live after a pass holds. -/
theorem get_pass {spec : Spec} (hlast : last? desired spec.key = some spec) {b : Autoscaler}
    (hb : (s.pass (plan s.autoscalers desired)).get spec.key = .ok b) :
    (spec.Valid → (b.spec == spec) = true) ∧
      (∀ a, s.get spec.key = .ok a → b.status = a.status ∧ (¬ spec.Valid → b.spec = a.spec) ∧
        ((a.spec == spec) = true → b = a)) ∧
      (¬ s.Live spec.key → b.status = Status.initial) := by
  simp only [← stored?_eq_some_iff, not_live_iff] at hb ⊢
  cases settled_pass coherent desired hlast with
  | kept before after reason =>
      cases after.symm.trans hb
      simp only [before, Option.some.injEq, forall_eq', implies_true, and_self, true_and]
      refine ⟨fun valid => ?_, nofun⟩
      rcases reason with hsame | invalid
      · exact hsame
      · exact absurd valid invalid
  | replaced before after differs valid spec_eq status_eq =>
      cases after.symm.trans hb
      simp only [before, Option.some.injEq, forall_eq']
      refine ⟨fun _ => spec_eq ▸ BEq.rfl, ⟨status_eq, fun h => absurd valid h, ?_⟩, nofun⟩
      intro hsame
      exact nomatch hsame.symm.trans differs
  | added before after valid spec_eq status_eq =>
      cases after.symm.trans hb
      rw [before]
      refine ⟨fun _ => spec_eq ▸ BEq.rfl, ?_, fun _ => status_eq⟩
      intro a stored
      exact absurd stored nofun
  | refused before after invalid => exact nomatch after.symm.trans hb

end Coherent

/-! ## Failures and accepted steps -/

/-- The failures report the specifications that cannot be shown, each once, by ascending key. -/
structure Reports (failures : List StepFailure) (kind : StepKind) (specs : Spec → Prop) : Prop where
  ascending : failures.Pairwise fun f g => compare f.key g.key = .lt
  mem_iff : ∀ f, f ∈ failures ↔ ∃ spec what, specs spec ∧ ¬ spec.Valid ∧
    spec.refusal? = some (.invalid what) ∧ f = ⟨kind, spec.key, .invalid what⟩

theorem Reports.eq_nil_iff {failures : List StepFailure} {kind : StepKind} {specs : Spec → Prop}
    (reports : Reports failures kind specs) : failures = [] ↔ ∀ spec, specs spec → spec.Valid := by
  rw [List.eq_nil_iff_forall_not_mem]
  constructor
  · intro hnone spec hspec
    by_contra invalid
    obtain ⟨what, hrefusal, -⟩ := Spec.exists_checked_eq invalid
    exact hnone _ ((reports.mem_iff _).mpr ⟨spec, what, hspec, invalid, hrefusal, rfl⟩)
  · intro hvalid f hf
    obtain ⟨spec, what, hspec, invalid, -⟩ := (reports.mem_iff f).mp hf
    exact invalid (hvalid spec hspec)

/-- Steps in order that store specifications fail for those that cannot be shown. -/
theorem reports_of_inOrder {s : Store} {steps : List Step} {step : Spec → Step} {kind : StepKind}
    {specs : Spec → Prop} (ordered : InOrder steps)
    (hmem : ∀ st, st ∈ steps ↔ ∃ spec, st = step spec ∧ specs spec)
    (hkind : ∀ spec, (step spec).kind = kind) (hkey : ∀ spec, (step spec).key = spec.key)
    (hfinds : ∀ spec, specs spec → ∃ status, s.finds (step spec) = spec.checked status) :
    Reports (steps.filterMap s.failure?) kind specs := by
  have hfailure (st : Step) (f : StepFailure) (h : s.failure? st = some f) :
      f.kind = st.kind ∧ f.key = st.key ∧ s.finds st = .error f.error := by
    unfold failure? at h
    cases houtcome : s.finds st with
    | ok content => simp [houtcome] at h
    | error e =>
        simp only [houtcome, Option.some.injEq] at h
        subst h
        exact ⟨rfl, rfl, rfl⟩
  constructor
  · rw [List.pairwise_filterMap]
    refine List.Pairwise.imp ?_ ordered
    intro a b hlt f hf g hg
    rw [(hfailure a f hf).2.1, (hfailure b g hg).2.1]
    exact hlt
  · intro f
    rw [List.mem_filterMap]
    constructor
    · rintro ⟨st, hst, hf⟩
      obtain ⟨spec, rfl, hspec⟩ := (hmem st).mp hst
      obtain ⟨status, hchecked⟩ := hfinds spec hspec
      obtain ⟨hkindf, hkeyf, herror⟩ := hfailure _ f hf
      have invalid : ¬ spec.Valid := by
        intro valid
        rw [hchecked, Spec.checked_eq_ok_iff.mpr ⟨valid, rfl⟩] at herror
        exact nomatch herror
      obtain ⟨what, hrefusal, hrefused⟩ := Spec.exists_checked_eq invalid
      rw [hchecked, hrefused] at herror
      refine ⟨spec, what, hspec, invalid, hrefusal, ?_⟩
      rw [hkind] at hkindf
      rw [hkey] at hkeyf
      cases f
      cases hkindf
      cases hkeyf
      cases herror
      rfl
    · rintro ⟨spec, what, hspec, invalid, hrefusal, rfl⟩
      obtain ⟨status, hchecked⟩ := hfinds spec hspec
      obtain ⟨what₀, hrefusal₀, hrefused⟩ := Spec.exists_checked_eq invalid
      rw [hrefusal] at hrefusal₀
      cases hrefusal₀
      refine ⟨step spec, (hmem _).mpr ⟨spec, rfl, hspec⟩, ?_⟩
      rw [failure?, hchecked, hrefused, hkind, hkey]

section Coherent

variable {s : Store} (coherent : s.Coherent) (desired : List Spec)

include coherent

theorem reports_updates :
    Reports ((s.updates desired).filterMap s.failure?) .update (s.Differs desired) := by
  refine reports_of_inOrder (Plan.inOrder_updates (Plan.keyed_byKey desired))
    (fun st => mem_updates_iff coherent) (fun _ => rfl) (fun _ => rfl) ?_
  rintro spec ⟨-, a, stored, -⟩
  exact ⟨a.status, finds_update stored⟩

theorem reports_additions :
    Reports ((s.additions desired).filterMap s.failure?) .add (s.Lacks desired) := by
  refine reports_of_inOrder (Plan.inOrder_additions (Plan.keyed_byKey desired))
    (fun st => mem_additions_iff coherent) (fun _ => rfl) (fun _ => rfl) ?_
  rintro spec ⟨-, hlive⟩
  exact ⟨Status.initial, finds_add hlive⟩

theorem filterMap_failure?_deletions : (s.deletions desired).filterMap s.failure? = [] := by
  rw [List.filterMap_eq_nil_iff]
  intro step hstep
  obtain ⟨k, rfl, live, -⟩ := (mem_deletions_iff coherent).mp hstep
  rw [failure?, finds_delete live]

/-- Reconciling takes the steps of the plan and reports what could not be stored: updates, then
additions. -/
theorem reconcile_eq :
    s.reconcile desired =
      (ReconcileError.outcome ((s.updates desired).filterMap s.failure? ++
          (s.additions desired).filterMap s.failure?),
        s.pass (plan s.autoscalers desired)) := by
  have hall := coherent.takeAll_eq (s.distinct_plan desired)
  rw [plan_eq, List.filterMap_append, List.filterMap_append,
    filterMap_failure?_deletions coherent, List.nil_append, ← plan_eq] at hall
  show (ReconcileError.outcome (keeper.takeAll (plan s.autoscalers desired) s).1,
    (keeper.takeAll (plan s.autoscalers desired) s).2) = _
  rw [hall]

/-- The keys of the steps that succeed: what is not desired, and what is desired, not stored as it
is desired, and can be shown. -/
theorem mem_keys_accepted_iff {k : Key} :
    k ∈ ((plan s.autoscalers desired).filter s.accepts).map Step.key ↔
      (s.Live k ∧ last? desired k = none) ∨
        ∃ spec, spec.key = k ∧ spec.Valid ∧ (s.Differs desired spec ∨ s.Lacks desired spec) := by
  have hvalid {spec : Spec} {step : Step} {status : Status}
      (hfinds : s.finds step = spec.checked status) : s.accepts step = true ↔ spec.Valid := by
    unfold accepts
    by_cases valid : spec.Valid
    · simp [hfinds, Spec.checked_eq_ok_iff.mpr ⟨valid, rfl⟩, valid]
    · obtain ⟨what, -, hrefused⟩ := Spec.exists_checked_eq valid
      simp [hfinds, hrefused, valid]
  simp only [List.mem_map, List.mem_filter, mem_plan_iff coherent]
  constructor
  · rintro ⟨step, ⟨hstep, haccepts⟩, rfl⟩
    rcases hstep with ⟨k, rfl, live, hlast⟩ | ⟨spec, rfl, hdiffers⟩ | ⟨spec, rfl, hlacks⟩
    · exact .inl ⟨live, hlast⟩
    · obtain ⟨-, a, stored, -⟩ := id hdiffers
      exact .inr ⟨spec, rfl, (hvalid (finds_update stored)).mp haccepts, .inl hdiffers⟩
    · exact .inr ⟨spec, rfl, (hvalid (finds_add hlacks.2)).mp haccepts, .inr hlacks⟩
  · rintro (⟨live, hlast⟩ | ⟨spec, rfl, valid, hdiffers | hlacks⟩)
    · refine ⟨.delete k, ⟨.inl ⟨k, rfl, live, hlast⟩, ?_⟩, rfl⟩
      rw [accepts, finds_delete live]
    · obtain ⟨-, a, stored, -⟩ := id hdiffers
      exact ⟨.update spec, ⟨.inr (.inl ⟨spec, rfl, hdiffers⟩),
        (hvalid (finds_update stored)).mpr valid⟩, rfl⟩
    · exact ⟨.add spec, ⟨.inr (.inr ⟨spec, rfl, hlacks⟩),
        (hvalid (finds_add hlacks.2)).mpr valid⟩, rfl⟩

end Coherent

/-- **Reconciling converges.**  After a pass over any list of desired specifications, of which the
last one of a key counts, a key is live when it is desired and was live before or can be shown to
the engine.  It holds what is desired if that can be shown, and what it held before otherwise; what
was live keeps its status, and also its version if it was stored as it is desired.  The failures are
the specifications that cannot be shown, updates first, then additions, each by ascending key.  The
version grows by the number of keys that were deleted, changed or added. -/
theorem reconcile_converges (tuning : Tuning) (handled : Bool) (history : List Action)
    (desired : List Spec) :
    let s := (create tuning handled).run history
    let outcome := (s.reconcile desired).1
    let s' := (s.reconcile desired).2
    (∀ k, s'.Live k ↔ ∃ spec, last? desired k = some spec ∧ (s.Live k ∨ spec.Valid)) ∧
      (∀ k spec b, last? desired k = some spec → s'.get k = .ok b →
        (spec.Valid → (b.spec == spec) = true) ∧
        (∀ a, s.get k = .ok a → b.status = a.status ∧ (¬ spec.Valid → b.spec = a.spec) ∧
          ((a.spec == spec) = true → b = a)) ∧
        (¬ s.Live k → b.status = Status.initial)) ∧
      (outcome = .ok () ↔ ∀ spec, s.Differs desired spec ∨ s.Lacks desired spec → spec.Valid) ∧
      (∃ updates additions, outcome = ReconcileError.outcome (updates ++ additions) ∧
        Reports updates .update (s.Differs desired) ∧
        Reports additions .add (s.Lacks desired)) ∧
      ∃ touched : List Key, touched.Nodup ∧
        (∀ k, k ∈ touched ↔ (s.Live k ∧ last? desired k = none) ∨
          ∃ spec, spec.key = k ∧ spec.Valid ∧ (s.Differs desired spec ∨ s.Lacks desired spec)) ∧
        s'.version = s.version + UInt64.ofNat touched.length := by
  intro s outcome s'
  have coherent : s.Coherent := coherent_run tuning handled history
  have hreconcile := reconcile_eq coherent desired
  have houtcome : outcome = ReconcileError.outcome ((s.updates desired).filterMap s.failure? ++
      (s.additions desired).filterMap s.failure?) := by
    show (s.reconcile desired).1 = _
    rw [hreconcile]
  have hs' : s' = s.pass (plan s.autoscalers desired) := by
    show (s.reconcile desired).2 = _
    rw [hreconcile]
  have hupdates := reports_updates coherent desired
  have hadditions := reports_additions coherent desired
  refine ⟨?_, ?_, ?_, ?_, ?_⟩
  · intro k
    rw [hs']
    exact live_pass_iff coherent desired
  · intro k spec b hlast hb
    obtain rfl := Plan.key_of_last? hlast
    exact get_pass coherent desired hlast (hs' ▸ hb)
  · rw [houtcome, ReconcileError.outcome_eq_ok_iff, List.append_eq_nil_iff, hupdates.eq_nil_iff,
      hadditions.eq_nil_iff]
    exact ⟨fun h spec => Or.rec (h.1 spec) (h.2 spec),
      fun h => ⟨fun spec hspec => h spec (.inl hspec), fun spec hspec => h spec (.inr hspec)⟩⟩
  · exact ⟨_, _, houtcome, hupdates, hadditions⟩
  -- the steps that succeed are counted by their keys, which are distinct
  · refine ⟨((plan s.autoscalers desired).filter s.accepts).map Step.key, ?_,
      fun k => mem_keys_accepted_iff coherent desired, ?_⟩
    · rw [List.Nodup, List.pairwise_map]
      exact (s.distinct_plan desired).filter _
    · rw [hs', List.length_map]
      exact coherent.version_pass (s.distinct_plan desired)

/-- The second entry of the first key counts, and the entry without a metric is reported. -/
example :
    let spec (name : String) (most : UInt32) (metrics : List Metric) : Spec :=
      ⟨"ns", name, none, most, metrics, none, none⟩
    let load : Metric := ⟨"load", 1, none⟩
    let s := (create ⟨1, .disconnect⟩ false).run [.mutate (.add (.declared (spec "a" 1 [load])))]
    let desired := [spec "a" 2 [load], spec "b" 1 [], spec "a" 3 [load]]
    (s.reconcile desired).1 =
        .error ⟨[⟨.add, ⟨"ns", "b"⟩, .invalid "no metrics for ns/b"⟩]⟩ ∧
      (s.reconcile desired).2.version = 2 := by
  decide

end Store

end Autoscaling
