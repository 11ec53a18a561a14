import Autoscaling.Proofs.Store.Records
import Autoscaling.Proofs.View.Status
import Mathlib

/-!
# Statuses there and back

A status is translated when it is shown to the engine, and back when the engine writes it.  Each of
the two forms can say something that the other one cannot.  Only a stored status may lack a current
number of replicas, which is shown as zero (`Status.withCurrent`); only the engine can tell the time
zero from no time (`View.Status.withoutZero`), and only its conditions may be of types that do not
exist.  Up to that the translations are inverse to each other (`View.Status.there_and_back`), and a
view that was just read can be written back without a change to what is stored.
-/

namespace Autoscaling

/-- The status with a current number of replicas, which is zero if there was none. -/
def Status.withCurrent (s : Status) : Status :=
  { s with currentScale := some (s.currentScale.getD 0) }

theorem Status.withCurrent_eq_iff {s : Status} : s.withCurrent = s ↔ s.currentScale.isSome = true := by
  obtain ⟨current, desired, conditions, time⟩ := s
  cases current <;> simp [withCurrent]

namespace View

/-! ## Conditions -/

/-- The types of conditions that exist. -/
def conditionTypes : List String := ["ScalingActive", "ScalingLimited", "AbleToScale"]

theorem Condition.known_iff {c : Condition} : c.Known ↔ c.type ∈ conditionTypes := by
  constructor
  · rintro ⟨type, htype⟩
    rw [← htype]
    cases type <;> decide
  · intro h
    simp only [conditionTypes, List.mem_cons, List.not_mem_nil, or_false] at h
    rcases h with h | h | h
    · exact ⟨.scalingActive, h.symm⟩
    · exact ⟨.scalingLimited, h.symm⟩
    · exact ⟨.ableToScale, h.symm⟩

theorem Condition.toCondition_eq_ok_iff {c : Condition} {d : Autoscaling.Condition} :
    c.toCondition = .ok d ↔ Condition.of d = c := by
  constructor
  · intro h
    rw [toCondition] at h
    split at h
    · next type htype =>
        cases h
        rw [Condition.of, ConditionType.text_of_ofText? htype]
    · cases h
  · rintro rfl
    exact toCondition_of d

/-- The conditions that are taken back are the ones that are shown as those that were written. -/
theorem Condition.toConditions_eq_ok_iff {cs : List Condition} {ds : List Autoscaling.Condition} :
    toConditions cs = .ok ds ↔ ds.map Condition.of = cs := by
  constructor
  · intro h
    induction cs generalizing ds with
    | nil =>
        cases h
        rfl
    | cons c rest ih =>
        obtain ⟨d, hfirst, h⟩ := bind_eq_ok_iff.mp h
        obtain ⟨others, hothers, h⟩ := bind_eq_ok_iff.mp h
        cases h
        rw [List.map_cons, toCondition_eq_ok_iff.mp hfirst, ih hothers]
  · rintro rfl
    exact toConditions_map_of ds

namespace Status

/-! ## Statuses -/

/-- The status with no time in place of the time zero. -/
def withoutZero (v : Status) : Status :=
  { v with lastScaleTime := if v.lastScaleTime = some 0 then none else v.lastScaleTime }

/-- A status comes back as it was, with the number of replicas that was shown. -/
theorem toStatus_shown (s : Autoscaling.Status) : (Status.of s).toStatus = .ok s.withCurrent :=
  toStatus_of s (s.currentScale.getD 0) s.desiredScale

/-- The number of replicas that a missing one is shown as makes no difference to what is shown. -/
theorem of_withCurrent (s : Autoscaling.Status) : Status.of s.withCurrent = Status.of s := rfl

theorem toStatus_eq_ok_iff {v : Status} {s : Autoscaling.Status} :
    v.toStatus = .ok s ↔
      s.conditions.map Condition.of = v.conditions ∧
        s = ⟨some v.currentReplicas, v.desiredReplicas, s.conditions, v.lastScaleTime.getD 0⟩ := by
  show (Condition.toConditions v.conditions).bind _ = _ ↔ _
  rw [bind_eq_ok_iff]
  constructor
  · rintro ⟨conditions, hconditions, h⟩
    cases h
    exact ⟨Condition.toConditions_eq_ok_iff.mp hconditions, rfl⟩
  · rintro ⟨hconditions, hs⟩
    exact ⟨s.conditions, Condition.toConditions_eq_ok_iff.mpr hconditions, congrArg _ hs.symm⟩

/-- What was taken back is shown as it was written, up to the time zero. -/
theorem of_toStatus {v : Status} {s : Autoscaling.Status} (h : v.toStatus = .ok s) :
    Status.of s = v.withoutZero := by
  obtain ⟨hconditions, hs⟩ := toStatus_eq_ok_iff.mp h
  rw [hs, Status.of, hconditions, withoutZero]
  congr 1
  cases v.lastScaleTime with
  | none => rfl
  | some time => by_cases hzero : time = 0 <;> simp [hzero]

end Status

end View

namespace Store

variable {s : Store}

/-- A view that is read is that of an autoscaler that is stored under its key. -/
theorem Coherent.exists_shown (coherent : s.Coherent) {v : View}
    (read : (∃ k, s.getView k = .ok v) ∨ ∃ scope, v ∈ s.list scope) :
    ∃ a, s.get v.key = .ok a ∧ v = a.shown := by
  rcases read with ⟨k, h⟩ | ⟨scope, h⟩
  · obtain ⟨entry, found, rfl⟩ := getView_eq_ok_iff.mp h
    obtain ⟨hkey, hview⟩ := coherent k entry found
    have hshown := (Autoscaler.view_eq_ok_iff.mp hview).2
    have hk : entry.view.key = k := by rw [hshown, Autoscaler.key_shown, hkey]
    exact ⟨entry.autoscaler, get_eq_ok_iff.mpr ⟨entry, hk ▸ found, rfl⟩, hshown⟩
  · exact exists_of_mem_list coherent h

/-- The view of a stored autoscaler is written back without a change to its specification, and to
its status only if that lacks a number of replicas. -/
theorem Coherent.updateStatus_shown (coherent : s.Coherent) {a : Autoscaler}
    (found : s.get a.key = .ok a) :
    ∃ c, s.updateStatus a.shown.ns a.shown = .ok c ∧
      c.store.get a.key = .ok ⟨a.spec, a.status.withCurrent, s.version + 1⟩ ∧
      c.change.view = { a.shown with resourceVersion := s.version + 1 } ∧
      ∀ k, k ≠ a.key → c.store.get k = s.get k ∧ c.store.getView k = s.getView k := by
  have stored := stored?_eq_some_iff.mpr found
  have houtcome : (Mutation.updateStatus a.shown.ns a.shown).outcome (s.stored? a.key) =
      .ok (some (a.spec, a.status.withCurrent)) := by
    have hstatus : a.shown.status.toStatus = .ok a.status.withCurrent :=
      View.Status.toStatus_shown a.status
    rw [Mutation.outcome, if_neg (not_not_intro rfl), hstatus, stored]
  rcases coherent.mutate_cases (.updateStatus a.shown.ns a.shown) with
    ⟨e, -, refused⟩ | ⟨c, accepted, commits⟩
  · cases refused.symm.trans houtcome
  · obtain ⟨hfind, hview⟩ := commits.find?_of_outcome houtcome
    refine ⟨c, accepted, get_eq_ok_iff.mpr ⟨_, hfind, rfl⟩, ?_, fun k hk => ?_⟩
    · have hshown := (Autoscaler.view_eq_ok_iff.mp hview).2
      rw [hshown, Autoscaler.shown, View.Status.of_withCurrent]
      rfl
    · rw [get, getView, commits.elsewhere k hk]
      exact ⟨rfl, rfl⟩

end Store

namespace View.Status

/-- **Statuses go there and back.**  A status that is shown is taken back with a current number of
replicas, so it comes back as it was exactly if it has one.  A status that the engine writes is
taken back exactly if all of its conditions are of types that exist, and otherwise the first that is
not is named in the refusal; what was taken back is shown as it was written, except that the time
zero is no time.

So in every store that a run reaches, a view that was just read can be written back.  All that this
changes of the autoscaler is its version, and its number of replicas if there was none; all that it
changes of the view is the version. -/
theorem there_and_back :
    (∀ s : Autoscaling.Status,
      (Status.of s).toStatus = .ok { s with currentScale := some (s.currentScale.getD 0) } ∧
      ((Status.of s).toStatus = .ok s ↔ s.currentScale.isSome = true)) ∧
    (∀ v : Status,
      ((∃ s, v.toStatus = .ok s) ↔ ∀ c ∈ v.conditions, c.type ∈ conditionTypes) ∧
      (∀ e, v.toStatus = .error e ↔
        ∃ before c after, v.conditions = before ++ c :: after ∧
          (∀ b ∈ before, b.type ∈ conditionTypes) ∧ c.type ∉ conditionTypes ∧
            e = .invalid ("unexpected condition type: " ++ c.type)) ∧
      ∀ s, v.toStatus = .ok s →
        Status.of s =
          { v with lastScaleTime := if v.lastScaleTime = some 0 then none else v.lastScaleTime }) ∧
    ∀ (tuning : Tuning) (handled : Bool) (history : List Action),
      let s := (Store.create tuning handled).run history
      ∀ v, ((∃ k, s.getView k = .ok v) ∨ ∃ scope, v ∈ s.list scope) →
        ∃ a c, s.get v.key = .ok a ∧ s.updateStatus v.ns v = .ok c ∧
          c.store.get v.key = .ok
            { a with
              status := { a.status with currentScale := some (a.status.currentScale.getD 0) }
              version := s.version + 1 } ∧
          c.change.view = { v with resourceVersion := s.version + 1 } ∧
          ∀ k, k ≠ v.key → c.store.get k = s.get k ∧ c.store.getView k = s.getView k := by
  refine ⟨fun s => ⟨toStatus_shown s, ?_⟩, fun v => ⟨?_, fun e => ?_, fun s h => of_toStatus h⟩, ?_⟩
  · rw [toStatus_shown, Except.ok.injEq, Autoscaling.Status.withCurrent_eq_iff]
  · simp only [exists_toStatus_iff, Condition.known_iff]
  · simp only [toStatus_eq_error_iff, Condition.known_iff]
    exact Iff.rfl
  · intro tuning handled history s v read
    have coherent : s.Coherent := Store.coherent_run tuning handled history
    obtain ⟨a, found, rfl⟩ := coherent.exists_shown read
    obtain ⟨c, accepted, hstored, hview, elsewhere⟩ := coherent.updateStatus_shown found
    exact ⟨a, c, found, accepted, hstored, hview, elsewhere⟩

/-- An autoscaler that the engine has not seen before. -/
def unseen : Autoscaling.Spec := ⟨"ns", "a", none, 5, [⟨"load", 1, none⟩], none, none⟩

/-- Its view is written back as it was read. -/
theorem there_and_back_unseen :
    let s := (Store.create ⟨1, .disconnect⟩ true).run [.mutate (.add (.declared unseen))]
    ∃ v c, s.getView unseen.key = .ok v ∧ s.updateStatus unseen.ns v = .ok c ∧
      c.store.get unseen.key = .ok ⟨unseen, ⟨some 0, 0, [], 0⟩, 2⟩ := by
  intro s
  have read : s.getView unseen.key = .ok (Autoscaler.shown ⟨unseen, .initial, 1⟩) := rfl
  have found : s.get unseen.key = .ok ⟨unseen, .initial, 1⟩ := rfl
  obtain ⟨a, c, hfound, accepted, hstored, -⟩ := there_and_back.2.2 ⟨1, .disconnect⟩ true
    [.mutate (.add (.declared unseen))] _ (.inl ⟨_, read⟩)
  cases hfound.symm.trans found
  exact ⟨_, c, read, accepted, hstored⟩

end View.Status

end Autoscaling
