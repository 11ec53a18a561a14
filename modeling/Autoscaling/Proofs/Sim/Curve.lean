import Autoscaling.Proofs.Sim.Instances
import Mathlib.Data.List.Basic
import Mathlib.Tactic.Common

/-!
# The curve of loads is a step function

A segment of a curve is active from its start, which is the length of the segments before it, until
the start of the next one (`Sim.IsActive`).  As every segment of an accepted curve lasts, exactly
one of them is active at any offset within the curve.  The simulation counts the length of a curve
in a word, which is the length modulo the size of the word (`Sim.toNat_wordTotal`).  As long as the
length fits, `Sim.load_of_active_segment` says that the load after any time is that of the segment
that is active when the curve is repeated.
-/

namespace Autoscaling

namespace Sim

/-! ## Lengths -/

/-- The length of a curve in milliseconds. -/
def total : List Segment → Nat
  | [] => 0
  | s :: rest => s.timespanMillis.toNat + total rest

theorem total_append (before after : List Segment) :
    total (before ++ after) = total before + total after := by
  induction before with
  | nil => rw [List.nil_append, total, Nat.zero_add]
  | cons s rest ih => rw [List.cons_append, total, total, ih, Nat.add_assoc]

theorem total_take_succ {curve : List Segment} {i : Nat} (h : i < curve.length) :
    total (curve.take (i + 1)) = total (curve.take i) + curve[i].timespanMillis.toNat := by
  rw [← List.take_append_getElem h, total_append, total, total, Nat.add_zero]

theorem total_take_le (curve : List Segment) (i : Nat) : total (curve.take i) ≤ total curve := by
  conv_rhs => rw [← List.take_append_drop i curve, total_append]
  exact Nat.le_add_right ..

theorem total_take_mono (curve : List Segment) {i j : Nat} (h : i ≤ j) :
    total (curve.take i) ≤ total (curve.take j) := by
  rw [← Nat.min_eq_left h, ← List.take_take]
  exact total_take_le ..

theorem toNat_wordTotal (curve : List Segment) :
    (wordTotal curve).toNat = total curve % UInt64.size := by
  induction curve with
  | nil => rfl
  | cons s rest ih =>
      rw [wordTotal, UInt64.toNat_add, ih, total]
      exact Nat.add_mod_mod ..

/-! ## The active segment -/

/-- A segment of a curve is active at an offset: it has started, and it has not ended. -/
def IsActive (curve : List Segment) (offset : Nat) (i : Fin curve.length) : Prop :=
  total (curve.take i) ≤ offset ∧
    offset < total (curve.take i) + curve[i].timespanMillis.toNat

/-- While a segment is active, the later ones have not started. -/
theorem IsActive.not_lt {curve : List Segment} {offset : Nat} {i j : Fin curve.length}
    (hi : IsActive curve offset i) (hj : IsActive curve offset j) : ¬ i.val < j.val := by
  intro hlt
  have hend : total (curve.take (i + 1)) ≤ total (curve.take j) := total_take_mono curve hlt
  rw [total_take_succ i.isLt] at hend
  exact absurd hj.1 (Nat.not_le.mpr (Nat.lt_of_lt_of_le hi.2 hend))

/-- No two segments are active at the same offset. -/
theorem IsActive.unique {curve : List Segment} {offset : Nat} {i j : Fin curve.length}
    (hi : IsActive curve offset i) (hj : IsActive curve offset j) : i = j :=
  Fin.ext (Nat.le_antisymm (Nat.not_lt.mp (hj.not_lt hi)) (Nat.not_lt.mp (hi.not_lt hj)))

/-- Within a curve there is an active segment, and it is the one that is found. -/
theorem exists_isActive {curve : List Segment} {offset : Nat} (h : offset < total curve) :
    ∃ i : Fin curve.length, IsActive curve offset i ∧ segmentAt? offset curve = some curve[i] := by
  induction curve generalizing offset with
  | nil => exact absurd h (Nat.not_lt_zero _)
  | cons s rest ih =>
      rw [segmentAt?]
      by_cases hfirst : offset < s.timespanMillis.toNat
      · refine ⟨⟨0, Nat.zero_lt_succ _⟩, ⟨Nat.zero_le _, ?_⟩, if_pos hfirst⟩
        simpa [total] using hfirst
      · rw [total] at h
        have hrest : offset - s.timespanMillis.toNat < total rest := by omega
        obtain ⟨i, ⟨hstarted, hlasts⟩, hfound⟩ := ih hrest
        have hstart : total ((s :: rest).take i.succ) =
            s.timespanMillis.toNat + total (rest.take i) := rfl
        refine ⟨i.succ, ⟨?_, ?_⟩, by rw [if_neg hfirst, hfound]; rfl⟩
        · rw [hstart]
          omega
        · show _ < _ + rest[i].timespanMillis.toNat
          rw [hstart]
          omega

/-! ## Accepted curves -/

/-- A curve has segments, all of them last, and its length is counted in the word. -/
structure Target.Lasts (t : Target) : Prop where
  ne_nil : t.curve ≠ []
  lasting : ∀ s ∈ t.curve, s.timespanMillis ≠ 0
  counted : t.total = wordTotal t.curve

namespace Target.Lasts

variable {t : Target} (lasts : t.Lasts)
include lasts

theorem total_pos : 0 < Sim.total t.curve := by
  obtain ⟨s, rest, hcurve⟩ := List.exists_cons_of_ne_nil lasts.ne_nil
  have hlasting : s.timespanMillis ≠ 0 := lasts.lasting s (hcurve ▸ List.mem_cons_self)
  have hpos : s.timespanMillis.toNat ≠ 0 := fun h => hlasting (UInt64.toNat_inj.mp h)
  rw [hcurve, Sim.total]
  omega

theorem toNat_total : t.total.toNat = Sim.total t.curve % UInt64.size := by
  rw [lasts.counted, toNat_wordTotal]

variable (fits : Sim.total t.curve < UInt64.size)
include fits

/-- A length that fits is counted exactly. -/
theorem toNat_total_of_fits : t.total.toNat = Sim.total t.curve := by
  rw [lasts.toNat_total, Nat.mod_eq_of_lt fits]

theorem total_ne_zero : t.total ≠ 0 := by
  intro hzero
  have hword := lasts.toNat_total_of_fits fits
  rw [hzero] at hword
  exact absurd hword (Nat.ne_of_lt lasts.total_pos)

/-- The load only depends on the whole milliseconds modulo the length. -/
theorem loadAt_congr {nanos nanos₀ : Nat}
    (h : nanos / 1000000 % Sim.total t.curve = nanos₀ / 1000000 % Sim.total t.curve) :
    t.loadAt nanos = t.loadAt nanos₀ := by
  rw [loadAt, loadAt, lasts.toNat_total_of_fits fits, h]

/-- Exactly one segment is active at any time, it is found, and its load is the load. -/
theorem exists_loadAt_eq (nanos : Nat) :
    let offset := nanos / 1000000 % Sim.total t.curve
    ∃ i, (∀ j, IsActive t.curve offset j ↔ j = i) ∧
      segmentAt? offset t.curve = some t.curve[i] ∧ t.loadAt nanos = .ok t.curve[i].load := by
  intro offset
  obtain ⟨i, hactive, hfound⟩ := exists_isActive (Nat.mod_lt (nanos / 1000000) lasts.total_pos)
  refine ⟨i, fun j => ⟨fun hj => hj.unique hactive, fun hj => hj ▸ hactive⟩, hfound, ?_⟩
  rw [loadAt, if_neg (lasts.total_ne_zero fits), lasts.toNat_total_of_fits fits, hfound]

end Target.Lasts

theorem TargetConfig.lasts_of_check {t : TargetConfig} {k : Key} {target : Target}
    (h : t.check = .ok (k, target)) : target.Lasts := by
  unfold check at h
  dsimp only at h
  split_ifs at h with _ _ hempty hlasting
  cases h
  refine ⟨fun hnil => hempty (List.isEmpty_iff.mpr hnil), fun s hs hzero => hlasting ?_, rfl⟩
  exact List.any_eq_true.mpr ⟨s, hs, beq_iff_eq.mpr hzero⟩

theorem lasts_fileTargets {ts : List TargetConfig} {filed targets : OrderedMap Key Target}
    (h : fileTargets ts filed = .ok targets)
    (lasts : ∀ k t, filed.find? k = some t → t.Lasts) {k : Key} {t : Target}
    (found : targets.find? k = some t) : t.Lasts := by
  induction ts generalizing filed with
  | nil =>
      cases Except.ok.inj h
      exact lasts k t found
  | cons first rest ih =>
      cases hcheck : first.check with
      | error e =>
          rw [fileTargets, hcheck] at h
          cases h
      | ok checked =>
          rw [fileTargets, hcheck] at h
          refine ih h fun k₀ t₀ found₀ => ?_
          rw [OrderedMap.find?_insert] at found₀
          split_ifs at found₀ with hk
          · cases found₀
            exact first.lasts_of_check hcheck
          · exact lasts k₀ t₀ found₀

/-- All curves of a simulation last. -/
theorem lasts_of_create {c : Config} {s : Sim} (made : create c = .ok s) {k : Key} {t : Target}
    (filed : s.target k = .ok t) : t.Lasts := by
  obtain ⟨-, -, targets, hfiled, rfl⟩ := create_eq_ok_iff.mp made
  refine lasts_fileTargets hfiled (fun k₀ t₀ found => ?_) (target_eq_ok_iff.mp filed)
  rw [OrderedMap.find?_empty] at found
  cases found

/-- **The load is that of the active segment.**  Let a simulation be accepted, and let the length of
one of its curves fit a word of 64 bits.  Then the word is not zero, so time can be taken modulo it.
Whatever time has passed, exactly one segment is active at the whole milliseconds modulo the length,
this segment is found, and its load is the load.  After any number of repetitions of the curve the
load is the same. -/
theorem load_of_active_segment {c : Config} {s : Sim} {k : Key} {t : Target}
    (made : create c = .ok s) (filed : s.target k = .ok t) (fits : total t.curve < UInt64.size) :
    t.total ≠ 0 ∧ t.total.toNat = total t.curve ∧
      (∀ nanos,
        let offset := nanos / 1000000 % total t.curve
        ∃ i, (∀ j, IsActive t.curve offset j ↔ j = i) ∧
          segmentAt? offset t.curve = some t.curve[i] ∧ t.loadAt nanos = .ok t.curve[i].load) ∧
      ∀ nanos repetitions,
        t.loadAt (nanos + repetitions * (total t.curve * 1000000)) = t.loadAt nanos := by
  have lasts := lasts_of_create made filed
  refine ⟨lasts.total_ne_zero fits, lasts.toNat_total_of_fits fits,
    fun nanos => lasts.exists_loadAt_eq fits nanos,
    fun nanos repetitions => lasts.loadAt_congr fits ?_⟩
  have hmillis : (nanos + repetitions * (total t.curve * 1000000)) / 1000000 =
      nanos / 1000000 + repetitions * total t.curve := by
    rw [← Nat.mul_assoc, Nat.add_mul_div_right _ _ (by decide)]
  rw [hmillis, Nat.add_mul_mod_self_right]

/-- The settings of an autoscaler with a load of 200 for the first second and of 100 for the next
half. -/
def twoStep : Config := ⟨"load", [⟨"a", "ns", 50.0, [⟨1000, 200.0⟩, ⟨500, 100.0⟩]⟩]⟩

/-- The second segment begins at its boundary, also in the fourth repetition. -/
theorem load_of_active_segment_two_step :
    ∃ s t, create twoStep = .ok s ∧ s.target ⟨"ns", "a"⟩ = .ok t ∧ total t.curve < UInt64.size ∧
      t.loadAt 1000000000 = .ok 100.0 ∧
      t.loadAt (1000000000 + 3 * (total t.curve * 1000000)) = .ok 100.0 := by
  let t : Target := ⟨50.0, [⟨1000, 200.0⟩, ⟨500, 100.0⟩], 1500⟩
  let s : Sim := ⟨"load", OrderedMap.empty.insert ⟨"ns", "a"⟩ t,
    OrderedMap.empty.insert ⟨"ns", "a"⟩ 1, 0⟩
  have made : create twoStep = .ok s := rfl
  have filed : s.target ⟨"ns", "a"⟩ = .ok t := rfl
  have fits : total t.curve < UInt64.size := by decide
  obtain ⟨-, -, hactive, hrepeats⟩ := load_of_active_segment made filed fits
  obtain ⟨i, hunique, -, hload⟩ := hactive 1000000000
  have hsecond : (1 : Fin 2) = i := (hunique (1 : Fin 2)).mp ⟨by decide, by decide⟩
  have hboundary : t.loadAt 1000000000 = .ok 100.0 := by
    rw [hload, ← hsecond]
    rfl
  exact ⟨s, t, made, filed, fits, hboundary, (hrepeats _ 3).trans hboundary⟩

end Sim

end Autoscaling
