import Autoscaling.Proofs.Reconcile.Plan
import Autoscaling.Proofs.Store.Run
import Autoscaling.Reconcile.Run
import Mathlib.Data.List.Basic
import Mathlib.Tactic.Common

/-!
# Taking the steps of a plan

A step is a mutation, so taking the steps of a plan is a run of the store, `Store.pass`.  As no two
steps of a plan are about the same key, every step finds under its key what was stored there before
the pass: its outcome, `Store.finds`, does not depend on the other steps.  What the pass does is
read off these outcomes:

* `Store.Coherent.takeAll_eq` — the failures are those of the steps whose outcome is one;
* `Store.Coherent.version_pass` — the version grows by the number of the other steps;
* `Store.Coherent.stored?_pass` — every key holds what the outcome of its step leaves there.
-/

namespace Autoscaling

universe u

namespace Step

/-- The mutation that a step makes. -/
def mutation : Step → Mutation
  | delete k => .delete k
  | update spec => .updateSpec spec
  | add spec => .add (.declared spec)

@[simp] theorem key_mutation (step : Step) : step.mutation.key = step.key := by
  cases step <;> rfl

end Step

/-- What a step adds to the failures of a pass. -/
def Step.report (step : Step) : Except StateError Unit → List StepFailure
  | .ok () => []
  | .error e => [⟨step.kind, step.key, e⟩]

/-- Taking a step reports its failure, if it fails, and goes on with what it leaves. -/
theorem Keeper.takeAll_cons {σ : Type u} (keeper : Keeper σ) (step : Step) (rest : List Step)
    (s : σ) :
    keeper.takeAll (step :: rest) s =
      (step.report (keeper.take step s).1 ++ (keeper.takeAll rest (keeper.take step s).2).1,
        (keeper.takeAll rest (keeper.take step s).2).2) := by
  rw [takeAll]
  obtain ⟨outcome, s⟩ := keeper.take step s
  cases outcome <;> rfl

theorem ReconcileError.outcome_eq_ok_iff {failures : List StepFailure} :
    ReconcileError.outcome failures = .ok () ↔ failures = [] := by
  cases failures with
  | nil => simp [outcome]
  | cons f rest => simp [outcome]

namespace Store

open Plan (Distinct)

/-- The store after a pass over steps. -/
def pass (s : Store) (steps : List Step) : Store :=
  s.run (steps.map fun step => .mutate step.mutation)

@[simp] theorem pass_cons (s : Store) (step : Step) (rest : List Step) :
    s.pass (step :: rest) = (s.act (.mutate step.mutation)).pass rest := rfl

/-- The outcome of a step, if it finds what is stored. -/
def finds (s : Store) (step : Step) : Except StateError (Option (Spec × Status)) :=
  step.mutation.outcome (s.stored? step.key)

/-- The failure of a step, if it finds what is stored. -/
def failure? (s : Store) (step : Step) : Option StepFailure :=
  match s.finds step with
  | .ok _ => none
  | .error e => some ⟨step.kind, step.key, e⟩

/-- Whether a step succeeds, if it finds what is stored. -/
def accepts (s : Store) (step : Step) : Bool :=
  match s.finds step with
  | .ok _ => true
  | .error _ => false

theorem take_eq (s : Store) (step : Step) :
    keeper.take step s = s.settle (s.mutate step.mutation) := by
  cases step <;> rfl

theorem Coherent.finds_act {s : Store} (coherent : s.Coherent) {step step₀ : Step}
    (hkey : step.key ≠ step₀.key) :
    (s.act (.mutate step.mutation)).finds step₀ = s.finds step₀ := by
  have hne : step₀.key ≠ step.mutation.key := by
    rw [Step.key_mutation]
    exact hkey.symm
  rw [finds, finds, coherent.stored?_act_of_ne hne]

/-- A step succeeds or fails as its outcome says. -/
theorem Coherent.mutate_step {s : Store} (coherent : s.Coherent) (step : Step) :
    (∃ e, s.mutate step.mutation = .error e ∧ s.finds step = .error e) ∨
      ∃ c, s.mutate step.mutation = .ok c ∧
        s.finds step = .ok ((c.store.stored? step.key).map Autoscaler.content) := by
  have hcases := coherent.mutate_cases step.mutation
  rw [Step.key_mutation] at hcases
  refine hcases.imp id fun ⟨c, hm, commits⟩ => ⟨c, hm, ?_⟩
  have outcome := commits.outcome
  rwa [Step.key_mutation] at outcome

theorem Coherent.pass {s : Store} (coherent : s.Coherent) (steps : List Step) :
    (s.pass steps).Coherent :=
  coherent.run _

/-- The steps of a pass leave what they are not about. -/
theorem Coherent.stored?_pass_of_forall_ne {s : Store} (coherent : s.Coherent) {steps : List Step}
    {k : Key} (h : ∀ step ∈ steps, step.key ≠ k) : (s.pass steps).stored? k = s.stored? k := by
  induction steps generalizing s with
  | nil => rfl
  | cons step rest ih =>
      obtain ⟨hstep, hrest⟩ := List.forall_mem_cons.mp h
      rw [pass_cons, ih (coherent.act _) hrest, coherent.stored?_act_of_ne]
      rw [Step.key_mutation]
      exact hstep.symm

/-- The failures of a pass are those of the steps whose outcome is one, in their order. -/
theorem Coherent.takeAll_eq {s : Store} (coherent : s.Coherent) {steps : List Step}
    (distinct : Distinct steps) :
    keeper.takeAll steps s = (steps.filterMap s.failure?, s.pass steps) := by
  induction steps generalizing s with
  | nil => rfl
  | cons step rest ih =>
      obtain ⟨hstep, hrest⟩ := List.pairwise_cons.mp distinct
      -- the other steps find what they would have found before this one
      have hlater : rest.filterMap (s.act (.mutate step.mutation)).failure? =
          rest.filterMap s.failure? := by
        refine List.filterMap_congr fun step₀ hmem => ?_
        rw [failure?, failure?, coherent.finds_act (hstep step₀ hmem)]
      have hrestPass := ih (coherent.act (.mutate step.mutation)) hrest
      rw [hlater] at hrestPass
      rw [Keeper.takeAll, take_eq, pass_cons, List.filterMap_cons]
      rcases coherent.mutate_step step with ⟨e, hm, hfinds⟩ | ⟨c, hm, hfinds⟩
      · have hact : s.act (.mutate step.mutation) = s := by simp only [Store.act, hm]
        rw [hact] at hrestPass
        simp only [hm, settle, hact, hrestPass, failure?, hfinds]
      · have hact : s.act (.mutate step.mutation) = c.store := by simp only [Store.act, hm]
        rw [hact] at hrestPass
        simp only [hm, settle, hact, hrestPass, failure?, hfinds]

/-- The version grows by the number of the steps that succeed. -/
theorem Coherent.version_pass {s : Store} (coherent : s.Coherent) {steps : List Step}
    (distinct : Distinct steps) :
    (s.pass steps).version = s.version + UInt64.ofNat (steps.filter s.accepts).length := by
  induction steps generalizing s with
  | nil => simp [Store.pass]
  | cons step rest ih =>
      obtain ⟨hstep, hrest⟩ := List.pairwise_cons.mp distinct
      have hlater :
          rest.filter (s.act (.mutate step.mutation)).accepts = rest.filter s.accepts := by
        refine List.filter_congr fun step₀ hmem => ?_
        rw [accepts, accepts, coherent.finds_act (hstep step₀ hmem)]
      rw [pass_cons, ih (coherent.act _) hrest, hlater]
      rcases coherent.mutate_step step with ⟨e, hm, hfinds⟩ | ⟨c, hm, hfinds⟩
      · simp [Store.act, hm, accepts, hfinds]
      · simp [Store.act, hm, accepts, hfinds, (coherent.commits hm).version,
          UInt64.ofNat_add, UInt64.add_assoc, UInt64.add_comm]

/-- What is under the key of a step after a pass: what the step leaves there, or what was there
before the pass if the step fails. -/
theorem Coherent.stored?_pass {s : Store} (coherent : s.Coherent) {steps : List Step}
    (distinct : Distinct steps) {step : Step} (hstep : step ∈ steps) :
    match s.finds step with
    | .ok content => ((s.pass steps).stored? step.key).map Autoscaler.content = content
    | .error _ => (s.pass steps).stored? step.key = s.stored? step.key := by
  induction steps generalizing s with
  | nil => exact absurd hstep List.not_mem_nil
  | cons first rest ih =>
      obtain ⟨hfirst, hrest⟩ := List.pairwise_cons.mp distinct
      have hact := coherent.act (.mutate first.mutation)
      rw [pass_cons]
      rcases List.mem_cons.mp hstep with rfl | hmem
      · -- the later steps leave what this one has left
        have hkeep := hact.stored?_pass_of_forall_ne (k := step.key)
          (fun step₀ hmem => (hfirst step₀ hmem).symm)
        rw [hkeep]
        rcases coherent.mutate_step step with ⟨e, hm, hfinds⟩ | ⟨c, hm, hfinds⟩
        · simp only [hfinds, Store.act, hm]
        · simp only [hfinds, Store.act, hm]
      · have later := ih hact hrest hmem
        have hkey := hfirst step hmem
        have hne : step.key ≠ first.mutation.key := by
          rw [Step.key_mutation]
          exact hkey.symm
        rwa [coherent.finds_act hkey, coherent.stored?_act_of_ne hne] at later

end Store

end Autoscaling
