import Autoscaling.Proofs.Reconcile.Race
import Mathlib.Data.List.Sort
import Mathlib.Tactic.Common

/-!
# Reconciling again

What a pass could store is stored as it is desired, and what it could not store is refused again in
the same words.  So a second pass makes no accepted mutation and has the answer of the first one,
also if statuses were written in between (`Store.reconcile_again`).  The plan of a pass is made from
the last desired specification of every key, so neither the order of the others nor what they say
has any part in it.
-/

namespace Autoscaling

namespace Plan

/-- Of lists with the same last specifications the same maps are made. -/
theorem byKey_congr {specs specs₀ : List Spec} (h : ∀ k, last? specs₀ k = last? specs k) :
    byKey specs₀ = byKey specs :=
  OrderedMap.eq_of_find?_eq fun k => by rw [find?_byKey, find?_byKey, h]

theorem plan_congr (stored : List Autoscaler) {desired desired₀ : List Spec}
    (h : ∀ k, last? desired₀ k = last? desired k) : plan stored desired₀ = plan stored desired := by
  rw [plan, plan, byKey_congr h]

/-- In a list with different keys every specification is the last one of its key. -/
theorem last?_eq_some_iff_of_nodup {specs : List Spec} (nodup : (specs.map Spec.key).Nodup) {k : Key}
    {spec : Spec} : last? specs k = some spec ↔ spec ∈ specs ∧ spec.key = k := by
  constructor
  · intro h
    exact ⟨List.mem_reverse.mp (List.mem_of_find?_eq_some h), key_of_last? h⟩
  · rintro ⟨hmem, rfl⟩
    obtain ⟨spec₀, hlast⟩ := exists_last?_iff.mpr ⟨spec, hmem, rfl⟩
    have hmem₀ := List.mem_reverse.mp (List.mem_of_find?_eq_some hlast)
    rw [hlast, List.inj_on_of_nodup_map nodup hmem₀ hmem (key_of_last? hlast)]

theorem last?_perm {specs specs₀ : List Spec} (nodup : (specs.map Spec.key).Nodup)
    (perm : specs₀.Perm specs) (k : Key) : last? specs₀ k = last? specs k := by
  have nodup₀ : (specs₀.map Spec.key).Nodup := (perm.map Spec.key).nodup_iff.mpr nodup
  refine Option.ext fun spec => ?_
  rw [last?_eq_some_iff_of_nodup nodup₀, last?_eq_some_iff_of_nodup nodup, perm.mem_iff]

end Plan

namespace Store

open Plan (last?)

/-! ## Passes that are refused -/

/-- A pass of which every step is refused leaves the store as it is. -/
theorem Coherent.pass_eq_self {s : Store} (coherent : s.Coherent) {steps : List Step}
    (refused : ∀ step ∈ steps, ∃ e, s.finds step = .error e) :
    s.pass steps = s ∧ s.log (steps.map fun step => .mutate step.mutation) = [] := by
  induction steps with
  | nil => exact ⟨rfl, rfl⟩
  | cons step rest ih =>
      obtain ⟨⟨e, he⟩, hrest⟩ := List.forall_mem_cons.mp refused
      rcases coherent.mutate_step step with ⟨e, hm, -⟩ | ⟨c, -, hfinds⟩
      · have hact : s.act (.mutate step.mutation) = s := by simp only [Store.act, hm]
        have hlog : s.accepted? (.mutate step.mutation) = none := by simp only [accepted?, hm]
        rw [pass_cons, List.map_cons, log_cons_of_not_accepted hlog, hact]
        exact ih hrest
      · rw [he] at hfinds
        cases hfinds

/-! ## The same specifications -/

/-- Reports of the same specifications that cannot be shown are equal. -/
theorem Reports.eq {failures failures₀ : List StepFailure} {kind : StepKind}
    {specs specs₀ : Spec → Prop} (reports : Reports failures kind specs)
    (reports₀ : Reports failures₀ kind specs₀)
    (same : ∀ spec, ¬ spec.Valid → (specs₀ spec ↔ specs spec)) : failures₀ = failures := by
  have irrefl : Std.Irrefl fun f g : StepFailure => compare f.key g.key = .lt :=
    ⟨fun f h => nomatch (Std.ReflCmp.compare_self (a := f.key)).symm.trans h⟩
  have antisymm : Std.Antisymm fun f g : StepFailure => compare f.key g.key = .lt :=
    ⟨fun f g h h₀ => nomatch h₀.symm.trans (Std.OrientedCmp.gt_of_lt h)⟩
  refine reports₀.ascending.eq_of_mem_iff reports.ascending fun f => ?_
  rw [reports₀.mem_iff, reports.mem_iff]
  refine exists_congr fun spec => exists_congr fun what => ?_
  constructor
  · rintro ⟨hspec, invalid, h⟩
    exact ⟨(same spec invalid).mp hspec, invalid, h⟩
  · rintro ⟨hspec, invalid, h⟩
    exact ⟨(same spec invalid).mpr hspec, invalid, h⟩

namespace SameSpecs

variable {s t : Store} (same : s.SameSpecs t) {desired : List Spec} {spec : Spec}

include same

theorem live_iff {k : Key} : t.Live k ↔ s.Live k := by
  rw [Store.live_iff, Store.live_iff, ← Option.isSome_iff_exists, ← Option.isSome_iff_exists,
    ← Option.isSome_map (f := Autoscaler.spec), same k, Option.isSome_map]

theorem lacks_iff : t.Lacks desired spec ↔ s.Lacks desired spec :=
  and_congr_right fun _ => not_congr same.live_iff

theorem differs_iff : t.Differs desired spec ↔ s.Differs desired spec := by
  have hspec (u : Store) : (∃ a, u.get spec.key = .ok a ∧ (a.spec == spec) = false) ↔
      ∃ stored, (u.stored? spec.key).map Autoscaler.spec = some stored ∧
        (stored == spec) = false := by
    simp [← stored?_eq_some_iff]
  rw [Differs, Differs, hspec, hspec, same spec.key]

end SameSpecs

/-! ## After a pass -/

/-- The mutations that a pass asks for. -/
def calls (s : Store) (desired : List Spec) : List Action :=
  (plan s.autoscalers desired).map fun step => .mutate step.mutation

section Coherent

variable {s : Store} (coherent : s.Coherent) {desired : List Spec} {spec : Spec}

include coherent

theorem snd_reconcile : (s.reconcile desired).2 = s.run (s.calls desired) := by
  rw [reconcile_eq coherent]
  rfl

/-- What differs after a pass differed before it and cannot be shown. -/
theorem differs_pass_iff :
    (s.pass (plan s.autoscalers desired)).Differs desired spec ↔
      s.Differs desired spec ∧ ¬ spec.Valid := by
  simp only [Differs, ← stored?_eq_some_iff]
  constructor
  · rintro ⟨hlast, b, hb, hdiffers⟩
    cases settled_pass coherent desired hlast with
    | kept before after reason =>
        cases after.symm.trans hb
        refine ⟨⟨hlast, _, before, hdiffers⟩, ?_⟩
        rcases reason with hsame | invalid
        · cases hsame.symm.trans hdiffers
        · exact invalid
    | replaced before after differs valid spec_eq status_eq =>
        cases after.symm.trans hb
        rw [spec_eq, BEq.rfl] at hdiffers
        cases hdiffers
    | added before after valid spec_eq status_eq =>
        cases after.symm.trans hb
        rw [spec_eq, BEq.rfl] at hdiffers
        cases hdiffers
    | refused before after invalid => cases after.symm.trans hb
  · rintro ⟨⟨hlast, a, ha, hdiffers⟩, invalid⟩
    cases settled_pass coherent desired hlast with
    | kept before after reason =>
        cases before.symm.trans ha
        exact ⟨hlast, _, after, hdiffers⟩
    | replaced before after differs valid spec_eq status_eq => exact absurd valid invalid
    | added before after valid spec_eq status_eq => cases before.symm.trans ha
    | refused before after invalid => cases before.symm.trans ha

/-- What is lacking after a pass was lacking before it and cannot be shown. -/
theorem lacks_pass_iff :
    (s.pass (plan s.autoscalers desired)).Lacks desired spec ↔
      s.Lacks desired spec ∧ ¬ spec.Valid := by
  simp only [Lacks, live_pass_iff coherent desired]
  constructor
  · rintro ⟨hlast, hgone⟩
    exact ⟨⟨hlast, fun live => hgone ⟨spec, hlast, .inl live⟩⟩,
      fun valid => hgone ⟨spec, hlast, .inr valid⟩⟩
  · rintro ⟨⟨hlast, hlive⟩, invalid⟩
    refine ⟨hlast, ?_⟩
    rintro ⟨spec₀, hlast₀, live | valid⟩
    · exact hlive live
    · cases hlast.symm.trans hlast₀
      exact invalid valid

/-- A pass over a store with the specifications that a pass has left is refused all along. -/
theorem finds_again {t : Store} (coherent₀ : t.Coherent)
    (same : (s.pass (plan s.autoscalers desired)).SameSpecs t) :
    ∀ step ∈ plan t.autoscalers desired, ∃ e, t.finds step = .error e := by
  intro step hstep
  rcases (mem_plan_iff coherent₀ desired).mp hstep with
    ⟨k, rfl, live, hnone⟩ | ⟨spec, rfl, hdiffers⟩ | ⟨spec, rfl, hlacks⟩
  · -- what is not desired is not there any more
    obtain ⟨spec, hlast, -⟩ := (live_pass_iff coherent desired).mp (same.live_iff.mp live)
    exact nomatch hnone.symm.trans hlast
  · have invalid := ((differs_pass_iff coherent).mp (same.differs_iff.mp hdiffers)).2
    obtain ⟨-, a, stored, -⟩ := hdiffers
    obtain ⟨what, -, hrefused⟩ := Spec.exists_checked_eq invalid
    exact ⟨_, (finds_update stored).trans (hrefused _)⟩
  · have invalid := ((lacks_pass_iff coherent).mp (same.lacks_iff.mp hlacks)).2
    obtain ⟨what, -, hrefused⟩ := Spec.exists_checked_eq invalid
    exact ⟨_, (finds_add hlacks.2).trans (hrefused _)⟩

/-- A pass over a store with the specifications that a pass has left has the answer of that pass,
and no mutation of it is accepted. -/
theorem reconcile_of_sameSpecs {t : Store} (coherent₀ : t.Coherent)
    (same : (s.pass (plan s.autoscalers desired)).SameSpecs t) :
    t.reconcile desired = ((s.reconcile desired).1, t) ∧ t.log (t.calls desired) = [] := by
  obtain ⟨hpass, hlog⟩ := coherent₀.pass_eq_self (finds_again coherent coherent₀ same)
  have hupdates : (t.updates desired).filterMap t.failure? =
      (s.updates desired).filterMap s.failure? := by
    refine (reports_updates coherent desired).eq (reports_updates coherent₀ desired) ?_
    intro spec invalid
    rw [same.differs_iff, differs_pass_iff coherent]
    exact and_iff_left invalid
  have hadditions : (t.additions desired).filterMap t.failure? =
      (s.additions desired).filterMap s.failure? := by
    refine (reports_additions coherent desired).eq (reports_additions coherent₀ desired) ?_
    intro spec invalid
    rw [same.lacks_iff, lacks_pass_iff coherent]
    exact and_iff_left invalid
  refine ⟨?_, hlog⟩
  rw [reconcile_eq coherent₀, hpass, hupdates, hadditions, reconcile_eq coherent]

end Coherent

/-- **Reconciling again does nothing.**  Let a pass be followed by another one over the same list,
with any statuses written in between, accepted or refused.  The second pass has the answer of the
first one, failures included, none of its mutations is accepted, and it leaves the store as it finds
it, watches included.

Of two lists with the same last specification of every key, such as two orders of a list in which no
key is repeated, a pass makes the same mutations with the same answers, publishes the same changes,
and leaves the same store. -/
theorem reconcile_again (tuning : Tuning) (handled : Bool) (history : List Action)
    (desired : List Spec) :
    let s := (create tuning handled).run history
    (∀ writes : List StatusWrite,
      let t := (s.reconcile desired).2.run (writes.map StatusWrite.action)
      t.reconcile desired = ((s.reconcile desired).1, t) ∧
        (t.reconcile desired).2 = t.run (t.calls desired) ∧ t.log (t.calls desired) = []) ∧
    ∀ desired₀, (∀ k, last? desired₀ k = last? desired k) ∨
        (desired.map Spec.key).Nodup ∧ desired₀.Perm desired →
      s.reconcile desired₀ = s.reconcile desired ∧
        (s.reconcile desired₀).2 = s.run (s.calls desired₀) ∧
        (s.log (s.calls desired₀)).map Accepted.change =
          (s.log (s.calls desired)).map Accepted.change := by
  intro s
  have coherent : s.Coherent := coherent_run tuning handled history
  refine ⟨fun writes => ?_, fun desired₀ h => ?_⟩
  · rw [snd_reconcile coherent]
    intro t
    have coherent₀ : t.Coherent := (coherent.pass _).run _
    have same : (s.pass (plan s.autoscalers desired)).SameSpecs t :=
      SameSpecs.run_writes (fun _ => rfl) (coherent.pass _) writes
    obtain ⟨hagain, hlog⟩ := reconcile_of_sameSpecs coherent coherent₀ same
    exact ⟨hagain, snd_reconcile coherent₀, hlog⟩
  · have hlast : ∀ k, last? desired₀ k = last? desired k := by
      rcases h with h | ⟨nodup, perm⟩
      · exact h
      · exact Plan.last?_perm nodup perm
    have hplan := Plan.plan_congr s.autoscalers hlast
    refine ⟨?_, snd_reconcile coherent, ?_⟩
    · show (ReconcileError.outcome (keeper.takeAll (plan s.autoscalers desired₀) s).1,
        (keeper.takeAll (plan s.autoscalers desired₀) s).2) = _
      rw [hplan]
      rfl
    · rw [calls, calls, hplan]

end Store

end Autoscaling
