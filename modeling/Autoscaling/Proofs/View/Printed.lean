import Autoscaling.Proofs.Decode.Written
import Autoscaling.Proofs.Json.Pretty

/-!
# Printed views are read back

The data of a view is written with a fixed number of lists and objects within one another, whatever
stands in it: only text and numbers are without bound.  So a printed list of views is within the
limit of the reader: it is read as the written forms of the views (`View.parse?_printed`), and from
those the same views are decoded (`View.decode_printed`).
-/

namespace Autoscaling

/-! ## Nesting of lists and optional values -/

namespace Json

variable {α : Type} (write : α → Json) {n : Nat} (h : ∀ x, (write x).depth ≤ n)
include h

theorem depth_ofOption_le (value : Option α) : (ofOption write value).depth ≤ n := by
  cases value with
  | none => exact Nat.zero_le n
  | some x => exact h x

theorem depth_ofList_le (items : List α) : (ofList write items).depth ≤ n + 1 := by
  refine Nat.succ_le_succ ?_
  induction items with
  | nil => exact Nat.zero_le n
  | cons x rest ih => exact max_le (h x) ih

end Json

/-! ## Nesting of views -/

open Json

theorem Selector.depth_toJson_le (s : Selector) : s.toJson.depth ≤ 1 := by
  refine Nat.succ_le_succ ?_
  induction s.labels.entries with
  | nil => exact le_rfl
  | cons e rest ih => exact max_le le_rfl ih

namespace View

theorem Metric.depth_toJson_le (m : Metric) : m.toJson.depth ≤ 2 := by
  have hselector := m.selector.depth_toJson_le
  simp only [toJson, ofInt64, depth, depthFields]
  omega

theorem Rules.depth_toJson_le (r : Rules) : r.toJson.depth ≤ 3 := by
  have hwindow := depth_ofOption_le ofUInt32 (n := 0) (fun _ => le_rfl)
    r.stabilizationWindowSeconds
  have hpolicies := depth_ofList_le Policy.toJson (n := 1) (fun _ => le_rfl) r.policies
  simp only [toJson, depth, depthFields]
  omega

theorem Behavior.depth_toJson_le (b : Behavior) : b.toJson.depth ≤ 4 := by
  have hup := depth_ofOption_le Rules.toJson Rules.depth_toJson_le b.scaleUp
  have hdown := depth_ofOption_le Rules.toJson Rules.depth_toJson_le b.scaleDown
  simp only [toJson, depth, depthFields]
  omega

theorem Spec.depth_toJson_le (s : Spec) : s.toJson.depth ≤ 5 := by
  have htarget : s.scaleTargetRef.toJson.depth = 1 := rfl
  have hmin := depth_ofOption_le ofUInt32 (n := 0) (fun _ => le_rfl) s.minReplicas
  have hmetrics := depth_ofList_le Metric.toJson Metric.depth_toJson_le s.metrics
  have hbehavior := depth_ofOption_le Behavior.toJson Behavior.depth_toJson_le s.behavior
  simp only [toJson, ofUInt32, depth, depthFields]
  omega

theorem Status.depth_toJson_le (s : Status) : s.toJson.depth ≤ 3 := by
  have hconditions := depth_ofList_le Condition.toJson (n := 1) (fun _ => le_rfl)
    s.conditions
  have htime := depth_ofOption_le ofUInt64 (n := 0) (fun _ => le_rfl) s.lastScaleTime
  simp only [toJson, ofUInt32, depth, depthFields]
  omega

theorem depth_toJson_le (v : View) : v.toJson.depth ≤ 6 := by
  have hspec := v.spec.depth_toJson_le
  have hstatus := v.status.depth_toJson_le
  simp only [toJson, ofUInt64, depth, depthFields]
  omega

/-! ## The printed list -/

/-- Printed views are read as the list of their written forms. -/
theorem parse?_printed (views : List View) {ending : String}
    (hending : ending = "" ∨ ending = "\n") :
    parse? ((ofList toJson views).pretty ++ ending) = some (ofList toJson views).canonical :=
  parse?_pretty _ ((depth_ofList_le toJson depth_toJson_le views).trans (by decide)) hending

/-- From what is read the same views are decoded. -/
theorem decode_printed (views : List View) :
    Decoder.list decoder .json (ofList toJson views).canonical = .ok views :=
  Decoder.reads_list views fun v _ => v.reads

end View

end Autoscaling
