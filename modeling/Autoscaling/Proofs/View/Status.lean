import Autoscaling.View.Derive
import Mathlib.Tactic.Common

/-!
# Statuses that are taken back

The engine writes a status in the form in which it sees one.  A status that was shown to it is
taken back as it was, with whatever numbers of replicas were put into it
(`View.Status.toStatus_of`).  Any other one is taken back exactly when the types of its conditions
exist; the first that does not is named in the refusal.
-/

namespace Autoscaling

/-- A step that is followed by another one fails if it fails itself or the other one does. -/
theorem bind_eq_error_iff {ε α β : Type} {x : Except ε α} {f : α → Except ε β} {e : ε} :
    x.bind f = .error e ↔ x = .error e ∨ ∃ a, x = .ok a ∧ f a = .error e := by
  cases x with
  | error e₀ => simp [Except.bind]
  | ok a => simp [Except.bind]

namespace ConditionType

@[simp] theorem ofText?_text (type : ConditionType) : ofText? type.text = some type := by
  cases type <;> rfl

/-- What is read is the name of the condition. -/
theorem text_of_ofText? {s : String} {type : ConditionType} (h : ofText? s = some type) :
    type.text = s := by
  unfold ofText? at h
  split at h <;> cases h <;> rfl

theorem ofText?_eq_none_iff {s : String} :
    ofText? s = none ↔ ∀ type : ConditionType, type.text ≠ s := by
  constructor
  · rintro h type rfl
    rw [ofText?_text] at h
    cases h
  · intro h
    cases hread : ofText? s with
    | none => rfl
    | some type => exact absurd (text_of_ofText? hread) (h type)

end ConditionType

namespace View

/-! ## Statuses that were shown -/

@[simp] theorem Condition.toCondition_of (c : Autoscaling.Condition) :
    (Condition.of c).toCondition = .ok c := by
  simp [toCondition, Condition.of]

@[simp] theorem Condition.toConditions_map_of (cs : List Autoscaling.Condition) :
    toConditions (cs.map Condition.of) = .ok cs := by
  induction cs with
  | nil => rfl
  | cons c rest ih => simp [toConditions, ih, bind, Except.bind]

/-- The status of an autoscaler is shown and taken back without loss, with the numbers of replicas
that were put into it. -/
theorem Status.toStatus_of (s : Autoscaling.Status) (current desired : UInt32) :
    { Status.of s with currentReplicas := current, desiredReplicas := desired }.toStatus =
      .ok ⟨some current, desired, s.conditions, s.lastScaleTime⟩ := by
  have htime : (if s.lastScaleTime = 0 then none else some s.lastScaleTime).getD 0 =
      s.lastScaleTime := by
    split_ifs with h
    · exact h.symm
    · rfl
  simp only [toStatus, Status.of, Condition.toConditions_map_of, bind, Except.bind, htime]

/-! ## Conditions of unknown types -/

/-- The type of a condition is one that exists. -/
def Condition.Known (c : Condition) : Prop := ∃ type : ConditionType, type.text = c.type

/-- The refusal of a condition of an unknown type. -/
def Condition.unexpected (c : Condition) : StateError :=
  .invalid ("unexpected condition type: " ++ c.type)

theorem Condition.toCondition_of_known {c : Condition} (known : c.Known) :
    ∃ condition, c.toCondition = .ok condition := by
  rw [toCondition]
  cases htype : ConditionType.ofText? c.type with
  | some type => exact ⟨_, rfl⟩
  | none =>
      obtain ⟨type, htext⟩ := known
      exact absurd htext (ConditionType.ofText?_eq_none_iff.mp htype type)

theorem Condition.toCondition_of_unknown {c : Condition} (unknown : ¬ c.Known) :
    c.toCondition = .error c.unexpected := by
  have htype : ConditionType.ofText? c.type = none :=
    ConditionType.ofText?_eq_none_iff.mpr (not_exists.mp unknown)
  rw [toCondition, htype]
  rfl

/-- The first condition is refused, or it is known and the rest is refused. -/
theorem Condition.toConditions_cons_eq_error_iff {c : Condition} {rest : List Condition}
    {e : StateError} :
    toConditions (c :: rest) = .error e ↔
      (¬ c.Known ∧ e = c.unexpected) ∨ (c.Known ∧ toConditions rest = .error e) := by
  have hrest (first : Autoscaling.Condition) :
      (toConditions rest).bind (fun others => .ok (first :: others)) = .error e ↔
        toConditions rest = .error e := by
    rw [bind_eq_error_iff]
    simp
  show c.toCondition.bind (fun first => (toConditions rest).bind fun others =>
    .ok (first :: others)) = .error e ↔ _
  rw [bind_eq_error_iff]
  simp only [hrest]
  by_cases known : c.Known
  · obtain ⟨condition, hc⟩ := toCondition_of_known known
    simp [hc, known]
  · simp [toCondition_of_unknown known, known, eq_comm]

/-- Of the conditions of unknown types the first one is reported. -/
theorem Condition.toConditions_eq_error_iff {cs : List Condition} {e : StateError} :
    toConditions cs = .error e ↔
      ∃ before c after, cs = before ++ c :: after ∧ (∀ b ∈ before, b.Known) ∧ ¬ c.Known ∧
        e = c.unexpected := by
  induction cs with
  | nil => simp [toConditions]
  | cons c rest ih =>
      rw [toConditions_cons_eq_error_iff, ih]
      constructor
      · rintro (⟨unknown, rfl⟩ | ⟨known, before, c₀, after, rfl, hbefore, unknown, rfl⟩)
        · exact ⟨[], c, rest, rfl, nofun, unknown, rfl⟩
        · exact ⟨c :: before, c₀, after, rfl, List.forall_mem_cons.mpr ⟨known, hbefore⟩, unknown,
            rfl⟩
      · rintro ⟨before, c₀, after, hcs, hbefore, unknown, rfl⟩
        cases before with
        | nil =>
            obtain ⟨rfl, -⟩ := List.cons.inj hcs
            exact .inl ⟨unknown, rfl⟩
        | cons b before =>
            obtain ⟨rfl, rfl⟩ := List.cons.inj hcs
            obtain ⟨known, hbefore⟩ := List.forall_mem_cons.mp hbefore
            exact .inr ⟨known, before, c₀, after, rfl, hbefore, unknown, rfl⟩

theorem Status.toStatus_eq_error_iff {s : Status} {e : StateError} :
    s.toStatus = .error e ↔
      ∃ before c after, s.conditions = before ++ c :: after ∧ (∀ b ∈ before, b.Known) ∧
        ¬ c.Known ∧ e = c.unexpected := by
  rw [← Condition.toConditions_eq_error_iff]
  show (Condition.toConditions s.conditions).bind _ = _ ↔ _
  rw [bind_eq_error_iff]
  simp

theorem Condition.forall_known_iff {cs : List Condition} :
    (∀ c ∈ cs, c.Known) ↔ ∀ e, toConditions cs ≠ .error e := by
  induction cs with
  | nil => simp [toConditions]
  | cons c rest ih =>
      simp only [List.forall_mem_cons, ih, ne_eq, toConditions_cons_eq_error_iff]
      by_cases known : c.Known <;> simp [known]

/-- A status can be taken back exactly when all of its conditions are of known types. -/
theorem Status.exists_toStatus_iff {s : Status} :
    (∃ status, s.toStatus = .ok status) ↔ ∀ c ∈ s.conditions, c.Known := by
  rw [Condition.forall_known_iff]
  unfold toStatus
  cases Condition.toConditions s.conditions <;> simp [bind, Except.bind]

end View

end Autoscaling
