import Autoscaling.Proofs.Reconcile.Convergence
import Mathlib.Tactic.Common

/-!
# Filling an empty store

To an empty store a plan adds everything that is desired, by ascending key.  So the autoscalers are
numbered in the order in which they are listed afterwards (`Store.list_seeded`), unless something
that is desired cannot be shown (`Store.reconcile_create_eq_ok_iff`).
-/

namespace Autoscaling

namespace Plan

theorem mem_values_byKey_iff {desired : List Spec} {spec : Spec} :
    spec ∈ (byKey desired).values ↔ last? desired spec.key = some spec := by
  rw [OrderedMap.mem_values_iff, ← find?_byKey]
  constructor
  · rintro ⟨k, h⟩
    obtain rfl := keyed_byKey desired k spec h
    exact h
  · exact fun h => ⟨spec.key, h⟩

theorem pairwise_values_byKey (desired : List Spec) :
    (byKey desired).values.Pairwise fun a b => a.key ≠ b.key := by
  have hordered : InOrder (((byKey desired).entries.filter fun _ => true).map fun e => .add e.2) :=
    inOrder_map (keyed_byKey desired) (fun _ => rfl) _
  have hdistinct := hordered.distinct
  rw [Distinct, List.filter_true, List.pairwise_map] at hdistinct
  rw [OrderedMap.values, List.pairwise_map]
  exact hdistinct

/-- The view of a specification that an empty store is filled with, by its place among them. -/
def seededView (i : Nat) (spec : Spec) : View :=
  Autoscaler.shown ⟨spec, Status.initial, UInt64.ofNat (i + 1)⟩

/-- The views of an empty store that was filled. -/
def seededViews (desired : List Spec) : List View := (byKey desired).values.mapIdx seededView

theorem keys_seededViews (desired : List Spec) :
    (seededViews desired).map View.key = (byKey desired).keys := by
  have hkey (e : Key × Spec) (he : e ∈ (byKey desired).entries) : e.2.key = e.1 :=
    keyed_byKey desired e.1 e.2 (OrderedMap.mem_entries_iff.mp he)
  have hkeys : (byKey desired).keys = (byKey desired).values.map Spec.key := by
    rw [OrderedMap.values, OrderedMap.keys, List.map_map]
    exact (List.map_congr_left hkey).symm
  rw [hkeys]
  refine List.ext_getElem (by simp [seededViews]) fun i _ _ => ?_
  simp only [seededViews, List.getElem_map, List.getElem_mapIdx]
  rfl

theorem mem_keys_seededViews_iff {desired : List Spec} {k : Key} :
    k ∈ (seededViews desired).map View.key ↔ ∃ spec ∈ desired, spec.key = k := by
  rw [keys_seededViews, OrderedMap.mem_keys_iff, OrderedMap.contains, find?_byKey,
    Option.isSome_iff_exists, exists_last?_iff]

theorem ascending_seededViews (desired : List Spec) :
    (seededViews desired).Pairwise fun v w => v.ns < w.ns ∨ v.ns = w.ns ∧ v.name < w.name := by
  have hkeys := (byKey desired).keys_ascending
  rw [← keys_seededViews, List.pairwise_map] at hkeys
  exact hkeys.imp Key.compare_eq_lt_iff.mp

theorem getElem_seededViews {desired : List Spec} {i : Nat}
    (hi : i < (seededViews desired).length) :
    ∃ spec, last? desired (seededViews desired)[i].key = some spec ∧
      (seededViews desired)[i] = seededView i spec := by
  have hi' : i < (byKey desired).values.length := by simpa [seededViews] using hi
  have hvalue : (seededViews desired)[i] = seededView i (byKey desired).values[i] :=
    List.getElem_mapIdx ..
  refine ⟨(byKey desired).values[i], ?_, hvalue⟩
  rw [hvalue]
  exact mem_values_byKey_iff.mp (List.getElem_mem _)

end Plan

/-- The plan for an empty store. -/
theorem plan_nil (desired : List Spec) :
    plan [] desired = (Plan.byKey desired).values.map .add := by
  have hkeys : (Plan.byKey []).keys = [] := rfl
  have hfind (k : Key) : (Plan.byKey []).find? k = none := rfl
  rw [plan, Plan.between, List.map_nil]
  simp [Plan.deletions, Plan.updates, Plan.additions, OrderedMap.values, OrderedMap.contains, hkeys,
    hfind]

namespace Store

/-- Adding one autoscaler after the other numbers them. -/
theorem Coherent.stored?_pass_add {s : Store} (coherent : s.Coherent) {specs : List Spec}
    (distinct : specs.Pairwise fun a b => a.key ≠ b.key)
    (lacking : ∀ spec ∈ specs, s.stored? spec.key = none) (valid : ∀ spec ∈ specs, spec.Valid)
    (i : Nat) (hi : i < specs.length) :
    (s.pass (specs.map .add)).stored? specs[i].key =
      some ⟨specs[i], Status.initial, s.version + UInt64.ofNat (i + 1)⟩ := by
  induction specs generalizing s i with
  | nil => exact nomatch hi
  | cons spec rest ih =>
      obtain ⟨hspec, hrest⟩ := List.pairwise_cons.mp distinct
      obtain ⟨hlacking, hlackingRest⟩ := List.forall_mem_cons.mp lacking
      obtain ⟨hvalid, hvalidRest⟩ := List.forall_mem_cons.mp valid
      have houtcome : (Mutation.add (.declared spec)).outcome
          (s.stored? (Mutation.add (.declared spec)).key) = .ok (some (spec, Status.initial)) := by
        show Mutation.outcome (s.stored? spec.key) _ = _
        rw [hlacking]
        exact Spec.checked_eq_ok_iff.mpr ⟨hvalid, rfl⟩
      rcases coherent.mutate_cases (.add (.declared spec)) with ⟨e, -, hfails⟩ | ⟨c, hc, commits⟩
      · exact nomatch hfails.symm.trans houtcome
      have hact : s.act (.mutate (Step.add spec).mutation) = c.store := by
        show s.act (.mutate (.add (.declared spec))) = _
        simp only [Store.act, hc]
      have hstored : c.store.stored? spec.key = some ⟨spec, Status.initial, s.version + 1⟩ :=
        congrArg (Option.map Entry.autoscaler) (commits.find?_of_outcome houtcome).1
      have hcoherent := commits.coherent coherent
      rw [List.map_cons, pass_cons, hact]
      cases i with
      | zero =>
          rw [List.getElem_cons_zero, hcoherent.stored?_pass_of_forall_ne, hstored]
          · rfl
          · intro step hstep
            obtain ⟨spec₀, hmem, rfl⟩ := List.mem_map.mp hstep
            exact (hspec spec₀ hmem).symm
      | succ i =>
          have hlater : ∀ spec₀ ∈ rest, c.store.stored? spec₀.key = none := by
            intro spec₀ hmem
            rw [stored?, commits.elsewhere spec₀.key (hspec spec₀ hmem).symm]
            exact hlackingRest spec₀ hmem
          have hnext := ih hcoherent hrest hlater hvalidRest i (Nat.lt_of_succ_lt_succ hi)
          rw [List.getElem_cons_succ, hnext, commits.version, UInt64.ofNat_add (i + 1),
            UInt64.add_comm (UInt64.ofNat (i + 1)), ← UInt64.add_assoc]
          rfl

/-- What a store lists are the autoscalers of its specifications, in their order. -/
theorem Coherent.values_records {s : Store} (coherent : s.Coherent) {specs : OrderedMap Key Spec}
    (hspecs : s.specs = specs) {autoscaler : Nat → Spec → Autoscaler}
    (hstored : ∀ i (hi : i < specs.values.length),
      s.stored? specs.values[i].key = some (autoscaler i specs.values[i])) :
    s.records.values = specs.values.mapIdx autoscaler := by
  have hvalues : s.records.values.map Autoscaler.spec = specs.values := by
    rw [← hspecs, values_specs]
  have hlength : s.records.values.length = specs.values.length := by
    rw [← hvalues, List.length_map]
  refine List.ext_getElem (by rw [List.length_mapIdx, hlength]) fun i hi _ => ?_
  have hspec : specs.values[i] = s.records.values[i].spec := by
    simp only [← hvalues, List.getElem_map]
  -- an autoscaler is stored under the key of its specification
  have hfiled : s.stored? s.records.values[i].spec.key = some s.records.values[i] := by
    obtain ⟨k, hfind⟩ := OrderedMap.mem_values_iff.mp (List.getElem_mem hi)
    rw [find?_records] at hfind
    rw [key_of_stored? coherent hfind, hfind]
  have hat := hstored i (hlength ▸ hi)
  rw [hspec, hfiled] at hat
  rw [List.getElem_mapIdx, hspec]
  exact Option.some.inj hat

section Create

variable (tuning : Tuning) (handled : Bool) (desired : List Spec)

/-- An empty store is filled unless the last specification of a key cannot be shown. -/
theorem reconcile_create_eq_ok_iff :
    ((create tuning handled).reconcile desired).1 = .ok () ↔
      ∀ k spec, Plan.last? desired k = some spec → spec.Valid := by
  have coherent := coherent_create tuning handled
  have hdead (k : Key) : ¬ (create tuning handled).Live k := not_live_iff.mpr rfl
  rw [reconcile_eq coherent, ReconcileError.outcome_eq_ok_iff, List.append_eq_nil_iff,
    (reports_updates coherent desired).eq_nil_iff, (reports_additions coherent desired).eq_nil_iff]
  constructor
  · rintro ⟨-, hadded⟩ k spec hlast
    obtain rfl := Plan.key_of_last? hlast
    exact hadded spec ⟨hlast, hdead spec.key⟩
  · intro h
    exact ⟨fun spec hdiffers => h _ spec hdiffers.1, fun spec hlacks => h _ spec hlacks.1⟩

theorem reconcile_create_snd :
    ((create tuning handled).reconcile desired).2 =
      (create tuning handled).pass ((Plan.byKey desired).values.map .add) := by
  rw [reconcile_eq (coherent_create tuning handled), ← plan_nil]
  rfl

/-- A store that was filled has the specifications that are desired. -/
theorem specs_seeded (valid : ∀ k spec, Plan.last? desired k = some spec → spec.Valid) :
    ((create tuning handled).reconcile desired).2.specs = Plan.byKey desired := by
  have coherent := coherent_create tuning handled
  have hreconcile := congrArg Prod.snd (reconcile_eq coherent desired)
  refine OrderedMap.eq_of_find?_eq fun k => ?_
  rw [find?_specs, Plan.find?_byKey, hreconcile]
  cases hlast : Plan.last? desired k with
  | none => rw [stored?_pass_of_undesired coherent desired hlast, Option.map_none]
  | some spec =>
      obtain rfl := Plan.key_of_last? hlast
      cases settled_pass coherent desired hlast with
      | kept before after reason => exact nomatch before
      | replaced before after differs hvalid spec_eq status_eq => exact nomatch before
      | added before after hvalid spec_eq status_eq => rw [after, Option.map_some, spec_eq]
      | refused before after invalid => exact absurd (valid _ _ hlast) invalid

theorem values_seeded (valid : ∀ k spec, Plan.last? desired k = some spec → spec.Valid) :
    ((create tuning handled).reconcile desired).2.records.values =
      (Plan.byKey desired).values.mapIdx fun i spec =>
        ⟨spec, Status.initial, UInt64.ofNat (i + 1)⟩ := by
  have coherent := coherent_create tuning handled
  have hspecs := specs_seeded tuning handled desired valid
  rw [reconcile_create_snd] at hspecs ⊢
  refine (coherent.pass _).values_records hspecs fun i hi => ?_
  have hvalid : ∀ spec ∈ (Plan.byKey desired).values, spec.Valid := fun spec hmem =>
    valid spec.key spec (Plan.mem_values_byKey_iff.mp hmem)
  have hzero : (create tuning handled).version = 0 := rfl
  rw [coherent.stored?_pass_add (Plan.pairwise_values_byKey desired) (fun _ _ => rfl) hvalid i hi,
    hzero, UInt64.zero_add]

/-- It lists them by ascending key, and has numbered them in this order. -/
theorem list_seeded (valid : ∀ k spec, Plan.last? desired k = some spec → spec.Valid) :
    ((create tuning handled).reconcile desired).2.list everyNamespace =
      Plan.seededViews desired := by
  have coherent : ((create tuning handled).reconcile desired).2.Coherent :=
    reconcile_create_snd tuning handled desired ▸ (coherent_create tuning handled).pass _
  rw [list_everyNamespace coherent, values_seeded tuning handled desired valid]
  refine List.ext_getElem (by simp [Plan.seededViews]) fun i _ _ => ?_
  simp only [Plan.seededViews, List.getElem_map, List.getElem_mapIdx]
  rfl

end Create

end Store

end Autoscaling
