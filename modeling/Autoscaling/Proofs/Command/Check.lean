import Autoscaling.Proofs.Provider.Builtin
import Autoscaling.Proofs.Reconcile.Seeding
import Autoscaling.Proofs.View.Printed
import Mathlib.Tactic.Common

/-!
# Checking a configuration

Checking a configuration succeeds on conditions on the text alone.  They are put together from those
of its stages: the text is a valid configuration (`Request.loadConfig_eq_ok_iff`), the backends that
it chooses can be made (`Request.resolveBuiltin_eq_ok_iff`), and what it declares can be stored in
an empty store (`Store.reconcile_create_eq_ok_iff`).  Then the views are `Plan.seededViews`.
-/

namespace Autoscaling

namespace Site

variable {β : Type}

/-- Synchronizing with the declared autoscalers of a configuration is reconciling with them. -/
theorem syncOnce_inline (declared : List Spec) (s : Site β) :
    s.syncOnce (Inline.client declared) =
      ((s.store.reconcile declared).1.mapError .reconcile,
        { s with store := (s.store.reconcile declared).2 }) := by
  simp only [syncOnce, Inline.client, reconcile]
  rcases s.store.reconcile declared with ⟨_ | _, store⟩ <;> rfl

end Site

namespace Request

theorem loadConfig_eq_ok_iff {content : FileContent} {c : Config} :
    loadConfig content = .ok c ↔
      ∃ bytes text, content = .ok bytes ∧ String.fromUTF8? bytes = some text ∧
        Config.ofText .standard text = .ok c ∧ c.validate = .ok () := by
  have hparse (text : String) : Config.parse text = .ok c ↔
      Config.ofText .standard text = .ok c ∧ c.validate = .ok () := by
    constructor
    · intro h
      obtain ⟨c₀, hread, h⟩ := bind_eq_ok_iff.mp h
      obtain ⟨⟨⟩, hvalid, h⟩ := bind_eq_ok_iff.mp h
      cases h
      exact ⟨hread, hvalid⟩
    · rintro ⟨hread, hvalid⟩
      exact bind_eq_ok_iff.mpr ⟨c, hread, bind_eq_ok_iff.mpr ⟨(), hvalid, rfl⟩⟩
  cases content with
  | error cause => simp [loadConfig]
  | ok bytes =>
      rw [loadConfig]
      cases hdecode : String.fromUTF8? bytes with
      | none => simp [hdecode]
      | some text => simp [hdecode, mapError_eq_ok_iff, hparse]

theorem declaredViews_eq_ok_iff {c : Config} {views : List View} :
    declaredViews c = .ok views ↔
      ∃ declared sim, c.Chooses declared sim ∧
        (∀ k spec, Plan.last? declared k = some spec → spec.Valid) ∧
        Plan.seededViews declared = views := by
  have hsync (declared : List Spec) (sim : Sim) :
      (Site.start c (Sim.Shared.empty.install sim)).syncOnce (c.builtinBackends declared).storage =
        (((Store.create c.store true).reconcile declared).1.mapError .reconcile,
          ⟨((Store.create c.store true).reconcile declared).2, .install .empty sim, []⟩) :=
    Site.syncOnce_inline declared (Site.start c (Sim.Shared.empty.install sim))
  constructor
  · intro h
    obtain ⟨⟨backends, outside⟩, hresolve, h⟩ := bind_eq_ok_iff.mp h
    obtain ⟨declared, sim, chooses, rfl, rfl⟩ := resolveBuiltin_eq_ok_iff.mp hresolve
    simp only [hsync] at h
    cases houtcome : ((Store.create c.store true).reconcile declared).1 with
    | error e => simp [houtcome, Except.mapError] at h
    | ok done =>
        have valid := (Store.reconcile_create_eq_ok_iff c.store true declared).mp houtcome
        simp only [houtcome, Except.mapError, Store.list_seeded c.store true declared valid] at h
        exact ⟨declared, sim, chooses, valid, Except.ok.inj h⟩
  · rintro ⟨declared, sim, chooses, valid, rfl⟩
    have houtcome := (Store.reconcile_create_eq_ok_iff c.store true declared).mpr valid
    refine bind_eq_ok_iff.mpr ⟨(c.builtinBackends declared, .install .empty sim),
      resolveBuiltin_eq_ok_iff.mpr ⟨declared, sim, chooses, rfl, rfl⟩, ?_⟩
    simp only [hsync, houtcome, Except.mapError, Store.list_seeded c.store true declared valid]

/-- A file holds a valid configuration that chooses built-in backends and declares autoscalers. -/
def Declares (content : FileContent) (declared : List Spec) : Prop :=
  ∃ bytes text c sim, content = .ok bytes ∧ String.fromUTF8? bytes = some text ∧
    Config.ofText .standard text = .ok c ∧ c.validate = .ok () ∧ c.Chooses declared sim

theorem checkFile_eq_ok_iff {content : FileContent} {views : List View} :
    checkFile content = .ok views ↔
      ∃ declared, Declares content declared ∧
        (∀ k spec, Plan.last? declared k = some spec → spec.Valid) ∧
        Plan.seededViews declared = views := by
  constructor
  · intro h
    obtain ⟨c, hload, h⟩ := bind_eq_ok_iff.mp h
    obtain ⟨bytes, text, hbytes, htext, hread, hvalid⟩ := loadConfig_eq_ok_iff.mp hload
    obtain ⟨declared, sim, chooses, valid, hviews⟩ := declaredViews_eq_ok_iff.mp h
    exact ⟨declared, ⟨bytes, text, c, sim, hbytes, htext, hread, hvalid, chooses⟩, valid, hviews⟩
  · rintro ⟨declared, ⟨bytes, text, c, sim, hbytes, htext, hread, hvalid, chooses⟩, valid, hviews⟩
    have hload := loadConfig_eq_ok_iff.mpr ⟨bytes, text, hbytes, htext, hread, hvalid⟩
    exact bind_eq_ok_iff.mpr
      ⟨c, hload, declaredViews_eq_ok_iff.mpr ⟨declared, sim, chooses, valid, hviews⟩⟩

/-- **Checking prints what is declared.**  Checking the configuration in a file succeeds exactly
when the file holds the text of a valid configuration, the configuration declares autoscalers,
simulates metrics with settings that the simulation accepts, scales what is simulated and logs
events if it does anything with them, and the last specification that is declared of each key has a
name, a namespace and a metric.

Then the views of the declared keys are printed as JSON, by ascending namespace and name.  What is
printed is read as the array of these views in their written form, and they are decoded from it.
Each is the view of the last specification of its key with the initial status, and the versions
count them from one.  If the check fails nothing is printed. -/
theorem check_prints_declared (content : FileContent) :
    let r := respondToCheck content
    (r.exitCode = 0 ↔ ∃ declared, Declares content declared ∧
      ∀ k spec, Plan.last? declared k = some spec → spec.Valid) ∧
    (∀ declared, Declares content declared →
      (∀ k spec, Plan.last? declared k = some spec → spec.Valid) →
      ∃ views, r.stdout = (Json.ofList View.toJson views).pretty ++ "\n" ∧
        Json.parse? r.stdout = some (Json.ofList View.toJson views).canonical ∧
        Decoder.list View.decoder .json (Json.ofList View.toJson views).canonical = .ok views ∧
        (∀ k, k ∈ views.map View.key ↔ ∃ spec ∈ declared, spec.key = k) ∧
        (views.Pairwise fun v w => v.ns < w.ns ∨ v.ns = w.ns ∧ v.name < w.name) ∧
        ∀ i (hi : i < views.length), ∃ spec, Plan.last? declared views[i].key = some spec ∧
          (⟨spec, Status.initial, UInt64.ofNat (i + 1)⟩ : Autoscaler).view = .ok views[i]) ∧
    (r.exitCode ≠ 0 → r.stdout = "") := by
  intro r
  have hsuccess (views : List View) (h : checkFile content = .ok views) :
      r = .success ((Json.ofList View.toJson views).pretty ++ "\n") := by
    show respondToCheck content = _
    rw [respondToCheck, h]
  have hfailure (e : CommandError) (h : checkFile content = .error e) : r = .failure e := by
    show respondToCheck content = _
    rw [respondToCheck, h]
  refine ⟨⟨fun hcode => ?_, ?_⟩, ?_, fun hcode => ?_⟩
  · cases h : checkFile content with
    | error e =>
        have hone : r.exitCode = 1 := by rw [hfailure e h]; rfl
        rw [hone] at hcode
        exact absurd hcode (by decide)
    | ok views =>
        obtain ⟨declared, declares, valid, -⟩ := checkFile_eq_ok_iff.mp h
        exact ⟨declared, declares, valid⟩
  · rintro ⟨declared, declares, valid⟩
    rw [hsuccess _ (checkFile_eq_ok_iff.mpr ⟨declared, declares, valid, rfl⟩)]
    rfl
  · intro declared declares valid
    have hviews := checkFile_eq_ok_iff.mpr ⟨declared, declares, valid, rfl⟩
    have hprinted : r.stdout =
        (Json.ofList View.toJson (Plan.seededViews declared)).pretty ++ "\n" := by
      rw [hsuccess _ hviews]
      rfl
    refine ⟨Plan.seededViews declared, hprinted, ?_, View.decode_printed _,
      fun k => Plan.mem_keys_seededViews_iff, Plan.ascending_seededViews declared, ?_⟩
    · rw [hprinted]
      exact View.parse?_printed _ (.inr rfl)
    · intro i hi
      obtain ⟨spec, hlast, hview⟩ := Plan.getElem_seededViews hi
      exact ⟨spec, hlast, Autoscaler.view_eq_ok_iff.mpr ⟨valid _ spec hlast, hview⟩⟩
  · cases h : checkFile content with
    | error e =>
        rw [hfailure e h]
        rfl
    | ok views =>
        rw [hsuccess views h] at hcode
        exact absurd rfl hcode

end Request

end Autoscaling
