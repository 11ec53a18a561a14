import Autoscaling.Proofs.Reconcile.Pass
import Mathlib.Data.List.Basic
import Mathlib.Tactic.Common

/-!
# The calls of a pass

Reconciling works on anything that keeps autoscalers, whatever it answers.  `Keeper.noting` is a
keeper that answers as another one does and notes every call with its answer, so that it can be read
off what a pass asks for.

`Keeper.reconcile_calls` says that this is known from the autoscalers that are kept when the pass
begins and from what is desired, before anything is answered: a call that fails does not keep any
other from being made, and none is made again.  The failures that are reported are the calls that
failed.
-/

namespace Autoscaling

universe u

open Plan (last?)

/-- What a keeper can be asked for. -/
inductive KeeperRequest where
  | autoscalers
  | add (a : Autoscaler)
  | updateSpec (spec : Spec)
  | delete (k : Key)

/-- A request with how it was answered. -/
structure KeeperCall where
  request : KeeperRequest
  answer : Except StateError Unit

namespace KeeperCall

/-- What is to be reported of a call, if it failed.  Asking for the autoscalers cannot fail. -/
def failure? (call : KeeperCall) : Option StepFailure :=
  match call.answer, call.request with
  | .ok (), _ => none
  | .error _, .autoscalers => none
  | .error e, .add a => some ⟨.add, a.key, e⟩
  | .error e, .updateSpec spec => some ⟨.update, spec.key, e⟩
  | .error e, .delete k => some ⟨.delete, k, e⟩

end KeeperCall

namespace Keeper

variable {σ : Type u} (keeper : Keeper σ)

/-- Make a call and note it. -/
def note (request : KeeperRequest) (operation : Operation σ StateError Unit) :
    Operation (σ × List KeeperCall) StateError Unit := fun s =>
  let (answer, t) := operation s.1
  (answer, t, s.2 ++ [⟨request, answer⟩])

/-- The keeper that notes all calls, the oldest first. -/
def noting : Keeper (σ × List KeeperCall) where
  autoscalers s :=
    let (stored, t) := keeper.autoscalers s.1
    (stored, t, s.2 ++ [⟨.autoscalers, .ok ()⟩])
  add a := note (.add a) (keeper.add a)
  updateSpec spec := note (.updateSpec spec) (keeper.updateSpec spec)
  delete k := note (.delete k) (keeper.delete k)

end Keeper

/-! ## Steps are calls -/

/-- The request that a step makes. -/
def Step.request : Step → KeeperRequest
  | delete k => .delete k
  | update spec => .updateSpec spec
  | add spec => .add (.declared spec)

/-- What is reported of the call of a step is what the step adds to the failures. -/
theorem Step.failure?_request (step : Step) (answer : Except StateError Unit) :
    (⟨step.request, answer⟩ : KeeperCall).failure?.toList = step.report answer := by
  cases answer with
  | ok => rfl
  | error e => cases step <;> rfl

namespace Keeper

variable {σ : Type u} (keeper : Keeper σ)

/-- The calls that take some steps, with the answers that they get. -/
def callsOf : List Step → σ → List KeeperCall
  | [], _ => []
  | step :: rest, s =>
      ⟨step.request, (keeper.take step s).1⟩ :: callsOf rest (keeper.take step s).2

theorem take_noting (step : Step) (s : σ) (calls : List KeeperCall) :
    keeper.noting.take step (s, calls) =
      ((keeper.take step s).1, (keeper.take step s).2,
        calls ++ [⟨step.request, (keeper.take step s).1⟩]) := by
  cases step <;> rfl

/-- Noting the calls changes no answer. -/
theorem takeAll_noting (steps : List Step) (s : σ) (calls : List KeeperCall) :
    keeper.noting.takeAll steps (s, calls) =
      ((keeper.takeAll steps s).1, (keeper.takeAll steps s).2,
        calls ++ keeper.callsOf steps s) := by
  induction steps generalizing s calls with
  | nil => rw [callsOf, List.append_nil]; rfl
  | cons step rest ih =>
      rw [takeAll_cons, takeAll_cons, take_noting, ih, callsOf, List.append_assoc,
        List.singleton_append]

/-- What is asked for does not depend on what is answered. -/
theorem map_request_callsOf (steps : List Step) (s : σ) :
    (keeper.callsOf steps s).map KeeperCall.request = steps.map Step.request := by
  induction steps generalizing s with
  | nil => rfl
  | cons step rest ih => rw [callsOf, List.map_cons, List.map_cons, ih]

theorem filterMap_failure?_callsOf (steps : List Step) (s : σ) :
    (keeper.callsOf steps s).filterMap KeeperCall.failure? = (keeper.takeAll steps s).1 := by
  induction steps generalizing s with
  | nil => rfl
  | cons step rest ih =>
      rw [takeAll_cons, callsOf, List.filterMap_cons, ih, ← Step.failure?_request]
      cases (⟨step.request, (keeper.take step s).1⟩ : KeeperCall).failure? <;> rfl

theorem takeAll_eq_nil_iff (steps : List Step) (s : σ) :
    (keeper.takeAll steps s).1 = [] ↔ ∀ call ∈ keeper.callsOf steps s, call.answer = .ok () := by
  induction steps generalizing s with
  | nil => simp [callsOf, takeAll]
  | cons step rest ih =>
      rw [takeAll_cons, callsOf, List.forall_mem_cons, List.append_eq_nil_iff, ih]
      cases (keeper.take step s).1 <;> simp [Step.report]

end Keeper

/-! ## What is asked for -/

namespace Plan

/-- What a pass asks for when these autoscalers are kept and these specifications are desired, each
of the three groups by ascending key.  The last one of a key counts, on either side. -/
structure Asked (stored : List Autoscaler) (desired : List Spec) (deleted : List Key)
    (updated added : List Spec) : Prop where
  /-- the keys that are kept and not desired -/
  mem_deleted_iff : ∀ k, k ∈ deleted ↔ (∃ a ∈ stored, a.key = k) ∧ ¬ ∃ spec ∈ desired, spec.key = k
  /-- what is desired of a key otherwise than it is kept -/
  mem_updated_iff : ∀ spec, spec ∈ updated ↔ last? desired spec.key = some spec ∧
    ∃ current, last? (stored.map Autoscaler.spec) spec.key = some current ∧
      (current == spec) = false
  /-- what is desired of a key that is not kept -/
  mem_added_iff : ∀ spec, spec ∈ added ↔ last? desired spec.key = some spec ∧
    ¬ ∃ a ∈ stored, a.key = spec.key
  ascending_deleted : deleted.Pairwise fun k k₀ => compare k k₀ = .lt
  ascending_updated : updated.Pairwise fun spec spec₀ => compare spec.key spec₀.key = .lt
  ascending_added : added.Pairwise fun spec spec₀ => compare spec.key spec₀.key = .lt
  nodup : (deleted ++ updated.map Spec.key ++ added.map Spec.key).Nodup

theorem exists_last?_specs_iff {stored : List Autoscaler} {k : Key} :
    (∃ spec, last? (stored.map Autoscaler.spec) k = some spec) ↔ ∃ a ∈ stored, a.key = k := by
  rw [exists_last?_iff]
  simp [Autoscaler.key]

/-- A plan consists of what is asked for. -/
theorem exists_asked (stored : List Autoscaler) (desired : List Spec) :
    ∃ deleted updated added, Asked stored desired deleted updated added ∧
      plan stored desired = deleted.map .delete ++ updated.map .update ++ added.map .add := by
  let before := byKey (stored.map Autoscaler.spec)
  let after := byKey desired
  have keyed : Keyed after := keyed_byKey desired
  have hbefore (k : Key) : before.find? k = last? (stored.map Autoscaler.spec) k := find?_byKey _ k
  have hafter (k : Key) : after.find? k = last? desired k := find?_byKey _ k
  obtain ⟨deleted, hdeleted⟩ : ∃ ks : List Key, deletions before after = ks.map .delete := ⟨_, rfl⟩
  obtain ⟨updated, hupdated⟩ : ∃ specs : List Spec, updates before after = specs.map .update :=
    ⟨_, List.map_map.symm⟩
  obtain ⟨added, hadded⟩ : ∃ specs : List Spec, additions before after = specs.map .add :=
    ⟨_, List.map_map.symm⟩
  have hdeletions : InOrder (deletions before after) := inOrder_deletions before after
  have hupdates : InOrder (updates before after) := inOrder_updates keyed
  have hadditions : InOrder (additions before after) := inOrder_additions keyed
  have hdistinct : Distinct (between before after) := distinct_between keyed
  rw [Distinct, between, hdeleted, hupdated, hadded] at hdistinct
  rw [hdeleted, InOrder, List.pairwise_map] at hdeletions
  rw [hupdated, InOrder, List.pairwise_map] at hupdates
  rw [hadded, InOrder, List.pairwise_map] at hadditions
  refine ⟨deleted, updated, added, ⟨fun k => ?_, fun spec => ?_, fun spec => ?_, hdeletions,
    hupdates, hadditions, ?_⟩, ?_⟩
  · have hmem : .delete k ∈ deletions before after ↔ k ∈ deleted :=
      hdeleted ▸ List.mem_map_of_injective fun _ _ => Step.delete.inj
    rw [← hmem, mem_deletions_iff, ← exists_last?_specs_iff, ← exists_last?_iff]
    simp [hbefore, hafter, Option.eq_none_iff_forall_ne_some]
  · have hmem : .update spec ∈ updates before after ↔ spec ∈ updated :=
      hupdated ▸ List.mem_map_of_injective fun _ _ => Step.update.inj
    rw [← hmem, mem_updates_iff keyed]
    simp [hbefore, hafter]
  · have hmem : .add spec ∈ additions before after ↔ spec ∈ added :=
      hadded ▸ List.mem_map_of_injective fun _ _ => Step.add.inj
    rw [← hmem, mem_additions_iff keyed, ← exists_last?_specs_iff]
    simp [hbefore, hafter, Option.eq_none_iff_forall_ne_some]
  · rw [← List.pairwise_map] at hdistinct
    simpa [List.Nodup, Function.comp_def, Step.key] using hdistinct
  · rw [plan, between, hdeleted, hupdated, hadded]

end Plan

theorem ReconcileError.eq_of_outcome {failures : List StepFailure} {e : ReconcileError}
    (h : ReconcileError.outcome failures = .error e) : e.failures = failures := by
  cases failures with
  | nil => exact nomatch h
  | cons f rest =>
      cases h
      rfl

/-- **What a pass asks for.**  Of any keeper, whatever it answers, a pass asks once what is kept,
and then, whatever fails, that what is not desired be deleted, that what is desired otherwise be
replaced, and that what is not kept be added with the initial status and no version, each group by
ascending key and no key twice.  This is determined by what is kept in the beginning and by what is
desired.

The pass succeeds if every call does, and otherwise it reports the calls that failed, in their
order.  What is noted changes neither the answer of the pass nor what it leaves. -/
theorem Keeper.reconcile_calls (stored : List Autoscaler) (desired : List Spec) :
    ∃ deleted updated added, Plan.Asked stored desired deleted updated added ∧
      ∀ (σ : Type u) (keeper : Keeper σ) (s : σ), (keeper.autoscalers s).1 = stored →
        let noted := keeper.noting.reconcile desired (s, [])
        let calls := noted.2.2
        (noted.1, noted.2.1) = keeper.reconcile desired s ∧
        calls.map KeeperCall.request = .autoscalers :: (deleted.map .delete ++
          updated.map .updateSpec ++ added.map fun spec => .add ⟨spec, Status.initial, 0⟩) ∧
        (noted.1 = .ok () ↔ ∀ call ∈ calls, call.answer = .ok ()) ∧
        ∀ e, noted.1 = .error e → e.failures = calls.filterMap KeeperCall.failure? := by
  obtain ⟨deleted, updated, added, asked, hplan⟩ := Plan.exists_asked stored desired
  refine ⟨deleted, updated, added, asked, ?_⟩
  rintro σ keeper s rfl noted calls
  let steps := plan (keeper.autoscalers s).1 desired
  have hsteps : steps = deleted.map .delete ++ updated.map .update ++ added.map .add := hplan
  let left := (keeper.autoscalers s).2
  let first : KeeperCall := ⟨.autoscalers, .ok ()⟩
  have halone : keeper.reconcile desired s =
      (ReconcileError.outcome (keeper.takeAll steps left).1, (keeper.takeAll steps left).2) := rfl
  have hnoted : noted = (ReconcileError.outcome (keeper.takeAll steps left).1,
      (keeper.takeAll steps left).2, first :: keeper.callsOf steps left) := by
    have htakeAll := keeper.takeAll_noting steps left [first]
    show (ReconcileError.outcome (keeper.noting.takeAll steps (left, [first])).1,
      (keeper.noting.takeAll steps (left, [first])).2) = _
    rw [htakeAll]
    rfl
  have hcalls : calls = first :: keeper.callsOf steps left := congrArg (·.2.2) hnoted
  have houtcome : noted.1 = ReconcileError.outcome (keeper.takeAll steps left).1 :=
    congrArg Prod.fst hnoted
  refine ⟨by rw [halone, hnoted], ?_, ?_, ?_⟩
  · rw [hcalls, List.map_cons, keeper.map_request_callsOf, hsteps]
    simp [first, Function.comp_def, Step.request, Autoscaler.declared]
  · rw [houtcome, ReconcileError.outcome_eq_ok_iff, keeper.takeAll_eq_nil_iff, hcalls,
      List.forall_mem_cons]
    exact ⟨fun h => ⟨rfl, h⟩, And.right⟩
  · intro e he
    rw [ReconcileError.eq_of_outcome (houtcome ▸ he), hcalls, List.filterMap_cons]
    exact (keeper.filterMap_failure?_callsOf steps left).symm

/-- Of a keeper that refuses everything all the same is asked, and everything is reported. -/
theorem Keeper.reconcile_calls_refusing :
    let spec (name : String) (most : UInt32) : Spec :=
      ⟨"ns", name, none, most, [⟨"load", 1, none⟩], none, none⟩
    let refuse : Operation Unit StateError Unit := fun s => (.error (.conflict "busy"), s)
    let stored : List Autoscaler := [.declared (spec "a" 1), .declared (spec "b" 1)]
    let desired := [spec "c" 1, spec "b" 2, spec "b" 3]
    let keeper : Keeper Unit :=
      ⟨fun s => (stored, s), fun _ => refuse, fun _ => refuse, fun _ => refuse⟩
    let noted := keeper.noting.reconcile desired ((), [])
    (keeper.autoscalers ()).1 = stored ∧
      (∃ deleted updated added, Plan.Asked stored desired deleted updated added ∧
        noted.2.2.map KeeperCall.request = .autoscalers :: (deleted.map .delete ++
          updated.map .updateSpec ++ added.map fun spec => .add ⟨spec, Status.initial, 0⟩)) ∧
      noted.1 = .error ⟨[⟨.delete, ⟨"ns", "a"⟩, .conflict "busy"⟩,
        ⟨.update, ⟨"ns", "b"⟩, .conflict "busy"⟩, ⟨.add, ⟨"ns", "c"⟩, .conflict "busy"⟩]⟩ := by
  intro spec refuse stored desired keeper noted
  obtain ⟨deleted, updated, added, asked, ofKeeper⟩ := reconcile_calls stored desired
  obtain ⟨-, requests, -, -⟩ := ofKeeper Unit keeper () rfl
  exact ⟨rfl, ⟨deleted, updated, added, asked, requests⟩, by decide⟩

end Autoscaling
